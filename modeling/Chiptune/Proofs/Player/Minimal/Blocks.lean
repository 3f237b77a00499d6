/-
What can be said of a block without running it.

Which ways lead out of it (`ways`) and which variables it stores to (`touched`)
can be read off its items. A block of steady items (`isSteady`) is never stuck for a
voice, and changes no more than that (`run_steady`). Two runs of a block of
`even` items, which see nothing of where the player stands, do the same
(`run_alike`).
-/
import Chiptune.Proofs.Player.Minimal.Meaning

namespace Chiptune.Player.Minimal

open Machine Sound

/-! ## What an instruction works on -/

/-- Where an argument leads for every voice in X and whatever is in Y. -/
inductive Area where
  | inside
  | chip
  /-- A variable, that of the voice if `indexed`. -/
  | cells (n : Nat) (indexed : Bool)
  /-- An offset of the image, or one of those up to `last`. -/
  | image (first last : Nat)
deriving DecidableEq

/-- A part of the image before the music, but for the variables. -/
def imageArea? (first last : Nat) : Option Area :=
  if (last < variablesAt ∨ slotsAt ≤ first) ∧ last < musicAt then some (.image first last) else none

/-- What a target leads to when it is indexed by up to `reach`. -/
def targetArea? (t : Target) (reach : Nat) : Option Area :=
  match t with
  | .fixed address =>
    if windowStart ≤ address.toNat ∧ address.toNat + reach < windowEnd then some .chip else none
  | .label name => (Assembly.offset? labels name).bind fun n => imageArea? n.toNat (n.toNat + reach)
  | .symbol .workArea _ => none
  | .symbol symbol n => (offsetOf? symbol).bind fun start => imageArea? (start + n.toNat) (start + n.toNat + reach)

/-- What an argument leads to, if it is not one of a jump. -/
def area? : Argument → Option Area
  | .absolute (.label _) => none
  | .implied | .accumulator | .immediate _ => some .inside
  | .absolute (.symbol .workArea n) => if n.toNat < 70 then some (.cells n.toNat false) else none
  | .absoluteX (.symbol .workArea n) => if n.toNat + 2 < 70 then some (.cells n.toNat true) else none
  | .absolute t => targetArea? t 0
  | .absoluteX t => targetArea? t 2
  | .absoluteY t => targetArea? t 255
  | _ => none

/-- The variable at `n`, that of voice `x` if `indexed`. -/
def touchedCell (x : UInt8) (n : Nat) (indexed : Bool) : Nat := if indexed then n + x.toNat else n

/-- The place is in the area, for voice `x`. -/
def Area.Holds (here : Site) (x : UInt8) : Area → Place → Prop
  | .inside, p => p = .nothing ∨ p = .accumulator ∨ ∃ v, p = .value v
  | .chip, p => ∃ t, p = .chip t
  | .cells n indexed, p => p = .cell (touchedCell x n indexed)
  | .image first last, p => ∃ n, first ≤ n ∧ n ≤ last ∧ p = .value (here.byte n)

theorem holds_imageArea? {here : Site} {x : UInt8} {first last n : Nat} {r : Area} (h : imageArea? first last = some r)
    (hfirst : first ≤ n) (hlast : n ≤ last) : ∃ p, here.datum? n = some p ∧ r.Holds here x p := by
  rw [imageArea?, Option.ite_none_right_eq_some] at h
  obtain ⟨⟨hbounds, hmusic⟩, hr⟩ := h
  cases hr
  refine ⟨.value (here.byte n), ?_, n, hfirst, hlast, rfl⟩
  rw [Site.datum?, if_pos ⟨by omega, by omega⟩]

section Symbols

variable {symbol : Symbol} {n : UInt16} {t : Target}

theorem targetArea?_symbol (h : symbol ≠ .workArea) (reach : Nat) : targetArea? (.symbol symbol n) reach =
    (offsetOf? symbol).bind fun start => imageArea? (start + n.toNat) (start + n.toNat + reach) := by
  cases symbol <;> first | rfl | exact absurd rfl h

theorem area?_absolute (h : ∀ n, t ≠ .symbol .workArea n) {r : Area} (hr : area? (.absolute t) = some r) :
    targetArea? t 0 = some r := by
  cases t with
  | symbol symbol n => cases symbol <;> first | exact hr | exact absurd rfl (h n)
  | label name => cases hr
  | fixed address => exact hr

theorem area?_absoluteX (h : ∀ n, t ≠ .symbol .workArea n) : area? (.absoluteX t) = targetArea? t 2 := by
  cases t with
  | symbol symbol n => cases symbol <;> first | rfl | exact absurd rfl (h n)
  | _ => rfl

end Symbols

/-- A target is in the chip's window, or indexed from one offset of the image at every site. -/
theorem targetArea?_cases {t : Target} {reach : Nat} {r : Area} (h : targetArea? t reach = some r) :
    (∃ address, t = .fixed address ∧ windowStart ≤ address.toNat ∧ address.toNat + reach < windowEnd ∧ r = .chip) ∨
      ∃ first, imageArea? first (first + reach) = some r ∧
        ∀ (here : Site) (index : UInt8), here.target? t index = here.datum? (first + index.toNat) := by
  cases t with
  | fixed address =>
    rw [targetArea?, Option.ite_none_right_eq_some] at h
    obtain ⟨⟨hstart, hend⟩, hr⟩ := h
    exact .inl ⟨address, rfl, hstart, hend, (Option.some.inj hr).symm⟩
  | label name =>
    obtain ⟨n, hn, h⟩ := Option.bind_eq_some_iff.mp h
    refine .inr ⟨n.toNat, h, fun here index => ?_⟩
    simp only [Site.target?, hn, Option.bind_some]
  | symbol symbol n =>
    have hsymbol : symbol ≠ .workArea := by
      rintro rfl
      cases h
    rw [targetArea?_symbol hsymbol] at h
    obtain ⟨start, hstart, h⟩ := Option.bind_eq_some_iff.mp h
    refine .inr ⟨start + n.toNat, h, fun here index => ?_⟩
    rw [target?_symbol hsymbol, hstart, Option.bind_some]

theorem holds_targetArea? {here : Site} {x : UInt8} {t : Target} {reach : Nat} {index : UInt8} {r : Area}
    (h : targetArea? t reach = some r) (hindex : index.toNat ≤ reach) :
    ∃ p, here.target? t index = some p ∧ r.Holds here x p := by
  obtain ⟨address, rfl, hstart, hend, rfl⟩ | ⟨first, himage, htarget⟩ := targetArea?_cases h
  · have hwindow : inWindow (address + index.toUInt16) = true := by
      have hstart' : windowStart = 0xD400 := rfl
      have hend' : windowEnd = 0xD800 := rfl
      have hadd : (address + index.toUInt16).toNat = address.toNat + index.toNat := by
        rw [UInt16.toNat_add, UInt8.toNat_toUInt16]
        omega
      simp only [inWindow, Bool.and_eq_true, decide_eq_true_eq]
      omega
    exact ⟨.chip (address + index.toUInt16), by rw [Site.target?, if_pos hwindow], _, rfl⟩
  · rw [htarget]
    exact holds_imageArea? himage (by omega) (by omega)

/-- **Where an argument leads** for a voice. -/
theorem holds_area? (here : Site) {s : State} {a : Argument} {r : Area} (h : area? a = some r)
    (hvoice : ∀ t, a = .absoluteX t → s.regs.x.toNat < 3) : ∃ p, here.place? s a = some p ∧ r.Holds here s.regs.x p := by
  have hy := s.regs.y.toNat_lt
  have hzero : (0 : UInt8).toNat = 0 := rfl
  have hbytes : variableBytes.toNat = 70 := rfl
  cases a with
  | implied =>
    cases h
    exact ⟨.nothing, rfl, .inl rfl⟩
  | accumulator =>
    cases h
    exact ⟨.accumulator, rfl, .inr (.inl rfl)⟩
  | immediate v =>
    cases h
    exact ⟨.value v, rfl, .inr (.inr ⟨v, rfl⟩)⟩
  | absolute t =>
    by_cases hwork : ∃ n, t = .symbol .workArea n
    · obtain ⟨n, rfl⟩ := hwork
      rw [area?, Option.ite_none_right_eq_some] at h
      obtain ⟨hn, hr⟩ := h
      cases hr
      refine ⟨.cell n.toNat, ?_, rfl⟩
      simp only [Site.place?, Site.target?, hzero, Nat.add_zero]
      rw [if_pos (by omega)]
    · exact holds_targetArea? (area?_absolute (fun n hn => hwork ⟨n, hn⟩) h) (by omega)
  | absoluteX t =>
    have hx := hvoice t rfl
    by_cases hwork : ∃ n, t = .symbol .workArea n
    · obtain ⟨n, rfl⟩ := hwork
      rw [area?, Option.ite_none_right_eq_some] at h
      obtain ⟨hn, hr⟩ := h
      cases hr
      refine ⟨.cell (n.toNat + s.regs.x.toNat), ?_, rfl⟩
      simp only [Site.place?, Site.target?]
      rw [if_pos (by omega)]
    · rw [area?_absoluteX fun n hn => hwork ⟨n, hn⟩] at h
      exact holds_targetArea? h (by omega)
  | absoluteY t => exact holds_targetArea? h (by omega)
  | _ => cases h

/-! ## What an instruction does -/

/-- Whether an instruction stores its result in its operand. -/
def stores (m : Mnemonic) : Bool := m = .sta || m = .inc || m = .dec

/-- Whether an instruction can store in an area. -/
def Area.holdsStores : Area → Bool
  | .chip | .cells _ _ => true
  | .inside | .image _ _ => false

/-- An instruction that computes, is never stuck and leaves X alone. -/
def steadyHere (m : Mnemonic) (a : Argument) : Bool :=
  match area? a with
  | none => false
  | some r => m ∈ computing && m ≠ .ldx && m ≠ .dex && (m ≠ .asl || a = .accumulator) && (!stores m || r.holdsStores)

/-- An item that is never stuck and leaves X alone. -/
def isSteady : Item → Bool
  | .label _ => true
  | .data _ => false
  | .instruction m a =>
    match a with
    | .branch _ => (taken? m {}).isSome
    | .absolute (.label _) => m = .jmp || m = .jsr
    | a => if m = .rts then a = .implied else steadyHere m a

/-- Where an item stores to the variables, and whether it is the voice's. -/
def touch? : Item → Option (Nat × Bool)
  | .instruction m a =>
    if stores m then
      match area? a with
      | some (.cells n indexed) => some (n, indexed)
      | _ => none
    else none
  | _ => none

/-- Where a block stores to the variables, for voice `x`. -/
def touched (x : UInt8) (items : List Item) : List Nat :=
  (items.filterMap touch?).map fun (n, indexed) => touchedCell x n indexed

/-- What a block touches for voice `x`, if these are where its items store. -/
theorem touched_eq {items : List Item} (stored : List (Nat × Bool)) (h : items.filterMap touch? = stored) (x : UInt8) :
    touched x items = stored.map fun (n, indexed) => touchedCell x n indexed := by rw [touched, h]

/-- What a block keeps for its voice, but for some variables. -/
structure Keeps (changed : List Nat) (s s' : State) : Prop where
  x : s'.regs.x = s.regs.x
  decimal : s'.regs.p.decimal = s.regs.p.decimal
  saved : s'.saved = s.saved
  cells : ∀ n, n ∉ changed → s'.cells n = s.cells n

namespace Keeps

variable {changed changed' : List Nat} {s s' s'' : State}

theorem refl (s : State) : Keeps changed s s := ⟨rfl, rfl, rfl, fun _ _ => rfl⟩

theorem trans (h : Keeps changed s s') (h' : Keeps changed s' s'') : Keeps changed s s'' :=
  ⟨h'.x.trans h.x, h'.decimal.trans h.decimal, h'.saved.trans h.saved,
    fun n hn => (h'.cells n hn).trans (h.cells n hn)⟩

theorem mono (h : Keeps changed s s') (hsubset : changed ⊆ changed') : Keeps changed' s s' :=
  ⟨h.x, h.decimal, h.saved, fun n hn => h.cells n fun hmem => hn (hsubset hmem)⟩

end Keeps

theorem storeAll_keeps {p : Place} {changed : List Nat} (hp : (∃ t, p = .chip t) ∨ ∃ n ∈ changed, p = .cell n) :
    ∀ (written : List Store) (s : State),
      ∃ s', written.foldlM (fun s w => s.store p w.value) s = some s' ∧ Keeps changed s s'
  | [], s => ⟨s, rfl, .refl s⟩
  | w :: written, s => by
    have hstore : ∃ s₁, s.store p w.value = some s₁ ∧ Keeps changed s s₁ := by
      rcases hp with ⟨t, rfl⟩ | ⟨n, hn, rfl⟩
      · exact ⟨_, rfl, rfl, rfl, rfl, fun _ _ => rfl⟩
      · refine ⟨_, rfl, rfl, rfl, rfl, fun k hk => ?_⟩
        exact Function.update_of_ne (by rintro rfl; exact hk hn) ..
    obtain ⟨s₁, hs₁, hkeeps⟩ := hstore
    obtain ⟨s', hs', hkeeps'⟩ := storeAll_keeps hp written s₁
    rw [List.foldlM_cons, hs₁]
    exact ⟨s', hs', hkeeps.trans hkeeps'⟩

/-- What the instructions that compute do to X and to decimal mode, and which of them store. -/
theorem execute_keeps {m : Mnemonic} (hm : m ∈ computing) (hldx : m ≠ .ldx) (hdex : m ≠ .dex) (v : UInt8) (o : Operand)
    (r : Registers) :
    (m.execute (fun _ => v) o r).regs.x = r.x ∧ (m.execute (fun _ => v) o r).regs.p.decimal = r.p.decimal ∧
      (stores m = false → (m = .asl → o = .accumulator) → (m.execute (fun _ => v) o r).stores = []) := by
  have hadd (f : Flags) (a v : UInt8) : (f.add a v).2.decimal = f.decimal := by
    unfold Flags.add
    split <;> rfl
  have hsub (f : Flags) (a v : UInt8) : (f.sub a v).2.decimal = f.decimal := by
    unfold Flags.sub
    split
    · rfl
    · exact hadd f a (~~~v)
  cases m with
  | adc => exact ⟨rfl, hadd .., fun _ _ => rfl⟩
  | sbc => exact ⟨rfl, hsub .., fun _ _ => rfl⟩
  | ldx => exact absurd rfl hldx
  | dex => exact absurd rfl hdex
  | sta | inc | dec => refine ⟨?_, ?_, fun h => by cases h⟩ <;> cases o <;> rfl
  | asl =>
    refine ⟨by cases o <;> rfl, by cases o <;> rfl, fun _ h => ?_⟩
    rw [h rfl]
    rfl
  | _ => first | exact ⟨rfl, rfl, fun _ _ => rfl⟩ | exact absurd hm (by decide)

/-- A steady instruction computes, and stores at most where it touches. -/
theorem compute_steady (here : Site) {m : Mnemonic} {a : Argument} {s : State} (h : steadyHere m a = true)
    (hvoice : ∀ t, a = .absoluteX t → s.regs.x.toNat < 3) :
    ∃ s', here.compute? m a s = some s' ∧ Keeps (touched s.regs.x [.instruction m a]) s s' := by
  unfold steadyHere at h
  split at h
  · cases h
  next r ha =>
  simp only [Bool.and_eq_true, Bool.or_eq_true, decide_eq_true_eq, Bool.not_eq_true'] at h
  obtain ⟨⟨⟨⟨hm, hldx⟩, hdex⟩, hasl⟩, hstores⟩ := h
  obtain ⟨p, hp, hholds⟩ := holds_area? here ha hvoice
  obtain ⟨hx', hdecimal, hnone⟩ := execute_keeps hm hldx hdex (s.load p) p.operand s.regs
  have hstart : Keeps (touched s.regs.x [.instruction m a]) s
      { s with regs := plain (m.execute (fun _ => s.load p) p.operand s.regs).regs } :=
    ⟨hx', hdecimal, rfl, fun _ _ => rfl⟩
  rw [Site.compute?, if_pos hm, hp, Option.bind_some]
  by_cases hm' : stores m = true
  · have hplace : (∃ t, p = .chip t) ∨ ∃ n ∈ touched s.regs.x [.instruction m a], p = .cell n := by
      have harea : r.holdsStores = true := hstores.resolve_left (by simp [hm'])
      cases r with
      | inside | image _ _ => cases harea
      | chip => exact .inl hholds
      | cells n indexed => exact .inr ⟨_, by simp [touched, touch?, hm', ha], hholds⟩
    obtain ⟨s', hs', hkeeps⟩ := storeAll_keeps hplace (m.execute (fun _ => s.load p) p.operand s.regs).stores
      { s with regs := plain (m.execute (fun _ => s.load p) p.operand s.regs).regs }
    exact ⟨s', hs', hstart.trans hkeeps⟩
  · have hoperand (h : m = .asl) : p.operand = .accumulator := by
      rw [hasl.resolve_left (not_not.mpr h)] at hp
      cases hp
      rfl
    have hempty := hnone (by simpa using hm') hoperand
    exact ⟨_, by dsimp only; rw [hempty]; rfl, hstart⟩

theorem actHere_computing {here : Site} {m : Mnemonic} {a : Argument} {s : State} (hm : m ∈ computing) :
    here.actHere m a s = .ofState? (here.compute? m a s) := by
  cases m <;> first | rfl | exact absurd hm (by decide)

theorem actHere_eq_next {here : Site} {m : Mnemonic} {a : Argument} {s s' : State} (h : here.compute? m a s = some s') :
    here.actHere m a s = .next s' := by
  have hm : m ∈ computing := by
    by_contra hm
    simp [Site.compute?, hm] at h
  rw [actHere_computing hm, h]
  rfl

/-- A branch is one for all flags. -/
theorem taken?_isSome {m : Mnemonic} (h : (taken? m {}).isSome = true) (p : Flags) : ∃ b, taken? m p = some b := by
  cases m <;> first | exact ⟨_, rfl⟩ | cases h

/-- X is a voice, if the items ask for it. -/
def Voiced (x : UInt8) (items : List Item) : Prop := ∀ m t, .instruction m (.absoluteX t) ∈ items → x.toNat < 3

namespace Voiced

variable {x : UInt8} {item : Item} {items : List Item}

theorem of_lt (hx : x.toNat < 3) : Voiced x items := fun _ _ _ => hx

theorem tail (h : Voiced x (item :: items)) : Voiced x items := fun m t hmem => h m t (List.mem_cons_of_mem _ hmem)

/-- What the first instruction is given. -/
theorem head {m : Mnemonic} {a : Argument} (h : Voiced x (.instruction m a :: items)) (t : Target)
    (ha : a = .absoluteX t) : x.toNat < 3 := h m t (by rw [ha]; exact List.mem_cons_self)

end Voiced

/-! ## Ways out -/

/-- The ways that may lead out of a block. -/
def ways : Option String → List Item → List Way
  | none, [] => [.fall]
  | some l, [] => [.goto l]
  | some l, item :: rest => if item = .label l then ways none rest else ways (some l) rest
  | none, .label _ :: rest => ways none rest
  | none, .data _ :: _ => [.stuck]
  | none, .instruction m a :: rest =>
    match a with
    | .branch l => ways none rest ++ ways (some l) rest
    | .absolute (.label l) => if m = .jmp then ways (some l) rest else [.call l rest]
    | _ => if m = .rts then [.ret] else ways none rest

theorem touched_cons (x : UInt8) (item : Item) (items : List Item) :
    touched x (item :: items) = touched x [item] ++ touched x items := by
  rw [touched, touched, touched, ← List.map_append, ← List.filterMap_append]
  rfl

/-- What a steady instruction comes to: it goes on and keeps all but what it touches, or leads out by a way of its block. -/
inductive Stepped (m : Mnemonic) (a : Argument) (s : State) : Act → Prop
  | next {s' : State} (hkeeps : Keeps (touched s.regs.x [.instruction m a]) s s')
      (hways : ∀ rest, ways none rest ⊆ ways none (.instruction m a :: rest)) : Stepped m a s (.next s')
  | jump {l : String} (hways : ∀ rest, ways (some l) rest ⊆ ways none (.instruction m a :: rest)) :
      Stepped m a s (.jump l)
  | call {l : String} (hways : ∀ rest, .call l rest ∈ ways none (.instruction m a :: rest)) : Stepped m a s (.call l)
  | ret (hways : ∀ rest, .ret ∈ ways none (.instruction m a :: rest)) : Stepped m a s .ret

theorem act_steady (here : Site) {m : Mnemonic} {a : Argument} {s : State} (h : isSteady (.instruction m a) = true)
    (hvoice : ∀ t, a = .absoluteX t → s.regs.x.toNat < 3) (hsaved : s.saved = []) : Stepped m a s (here.act m a s) := by
  have hother (hways : ∀ rest, ways none (.instruction m a :: rest) = if m = .rts then [.ret] else ways none rest)
      (h : (if m = .rts then decide (a = .implied) else steadyHere m a) = true) :
      Stepped m a s (here.actHere m a s) := by
    by_cases hrts : m = .rts
    · subst hrts
      have ha : a = .implied := by simpa using h
      have hret : here.actHere .rts a s = .ret := if_pos ⟨ha, hsaved⟩
      rw [hret]
      exact .ret fun rest => by simp [hways]
    · rw [if_neg hrts] at h
      obtain ⟨s', hs', hkeeps⟩ := compute_steady here h hvoice
      rw [actHere_eq_next hs']
      exact .next hkeeps fun rest => by simp [hways, hrts]
  cases a with
  | branch l =>
    obtain ⟨b, hb⟩ := taken?_isSome h s.regs.p
    rw [show here.act m (.branch l) s = .branch l s (taken? m s.regs.p) from rfl, hb]
    cases b with
    | true => exact .jump fun _ => List.subset_append_right ..
    | false => exact .next (.refl s) fun _ => List.subset_append_left ..
  | absolute t =>
    cases t with
    | label l =>
      have hm : m = .jmp ∨ m = .jsr := by simpa [isSteady] using h
      rcases hm with rfl | rfl
      · exact .jump fun _ => List.Subset.refl _
      · rw [show here.act .jsr (.absolute (.label l)) s = .call l from if_pos hsaved]
        exact .call fun _ => List.mem_singleton.mpr rfl
    | _ => exact hother (fun _ => rfl) h
  | _ => exact hother (fun _ => rfl) h

/-- **A block of steady items** is not stuck, leaves by one of its ways, and keeps all but what it touches. -/
theorem run_steady (here : Site) : ∀ (items : List Item) (seek : Option String) {s : State},
    (∀ item ∈ items, isSteady item = true) → Voiced s.regs.x items → s.saved = [] →
      (run here seek items s).1 ∈ ways seek items ∧ Keeps (touched s.regs.x items) s (run here seek items s).2
  | [], none, s, _, _, _ => ⟨List.mem_singleton.mpr rfl, .refl s⟩
  | [], some l, s, _, _, _ => ⟨List.mem_singleton.mpr rfl, .refl s⟩
  | item :: rest, some l, s, hsteady, hx, hsaved => by
    have hrest (seek : Option String) := run_steady here rest seek (fun i hi => hsteady i (by simp [hi])) hx.tail hsaved
    have hsubset : touched s.regs.x rest ⊆ touched s.regs.x (item :: rest) := by
      rw [touched_cons]
      exact List.subset_append_right ..
    rw [run, ways]
    split
    · exact ⟨(hrest none).1, (hrest none).2.mono hsubset⟩
    · exact ⟨(hrest (some l)).1, (hrest (some l)).2.mono hsubset⟩
  | .label name :: rest, none, s, hsteady, hx, hsaved =>
    run_steady here rest none (fun i hi => hsteady i (by simp [hi])) hx.tail hsaved
  | .data bytes :: rest, none, s, hsteady, _, _ => by
    have := hsteady (.data bytes) (by simp)
    cases this
  | .instruction m a :: rest, none, s, hsteady, hx, hsaved => by
    have hrest (seek : Option String) {s' : State} (hs' : Keeps (touched s.regs.x [.instruction m a]) s s') :
        (run here seek rest s').1 ∈ ways seek rest ∧
          Keeps (touched s.regs.x (.instruction m a :: rest)) s (run here seek rest s').2 := by
      obtain ⟨hway, hkeeps⟩ := run_steady here rest seek (fun i hi => hsteady i (by simp [hi]))
        (by rw [hs'.x]; exact hx.tail) (hs'.saved.trans hsaved)
      rw [hs'.x] at hkeeps
      rw [touched_cons]
      exact ⟨hway, (hs'.mono (List.subset_append_left ..)).trans (hkeeps.mono (List.subset_append_right ..))⟩
    have hstep := act_steady here (hsteady (.instruction m a) (by simp)) hx.head hsaved
    rw [run]
    generalize here.act m a s = action at hstep ⊢
    cases hstep with
    | next hkeeps hways => exact ⟨hways rest (hrest none hkeeps).1, (hrest none hkeeps).2⟩
    | jump hways => exact ⟨hways rest (hrest (some _) (.refl s)).1, (hrest (some _) (.refl s)).2⟩
    | call hways => exact ⟨hways rest, .refl s⟩
    | ret hways => exact ⟨hways rest, .refl s⟩

/-! ## Two runs -/

/-- Whether a variable holds half of an address. -/
def isAddress (n : Nat) : Bool := n < 6 || (9 ≤ n && n < 15)

theorem isAddress_eq_false {n : Nat} : isAddress n = false ↔ (6 ≤ n ∧ n < 9) ∨ 15 ≤ n := by
  simp only [isAddress, Bool.or_eq_false_iff, Bool.and_eq_false_iff, decide_eq_false_iff_not]
  omega

/-- Whether a byte of the image before the music is the same wherever the player stands. -/
def isCommon (n : Nat) : Bool := (9 ≤ n && n < 12) || (slotsAt ≤ n && n < 2474)

/-- Two sites of one player with one song, before the music. -/
def Twin (here there : Site) : Prop := ∀ n, isCommon n = true → here.byte n = there.byte n

/-- States that differ in addresses alone. -/
structure Alike (s t : State) : Prop where
  regs : s.regs = t.regs
  saved : s.saved = t.saved
  sid : s.sid = t.sid
  cells : ∀ n, isAddress n = false → s.cells n = t.cells n

namespace Alike

theorem refl (s : State) : Alike s s := ⟨rfl, rfl, rfl, fun _ _ => rfl⟩

end Alike

/-- Whether what is in an area is the same wherever the player stands. -/
def Area.isEven : Area → Bool
  | .inside | .chip => true
  | .cells n _ => 15 ≤ n
  | .image first last => (9 ≤ first && last < 12) || (slotsAt ≤ first && last < 2474)

/-- A steady item that does the same wherever the player stands. -/
def even : Item → Bool
  | .instruction m a => isSteady (.instruction m a) && (area? a).all Area.isEven
  | item => isSteady item

section Alike

variable {here there : Site} {s t : State}

theorem datum?_twin (htwin : Twin here there) {n : Nat} (hn : isCommon n = true) : here.datum? n = there.datum? n := by
  rw [Site.datum?, Site.datum?, htwin n hn]

theorem target?_twin (htwin : Twin here there) {target : Target} {reach : Nat} {index : UInt8} {r : Area}
    (h : targetArea? target reach = some r) (hr : r.isEven = true) (hindex : index.toNat ≤ reach) :
    here.target? target index = there.target? target index := by
  obtain ⟨address, rfl, -⟩ | ⟨first, himage, htarget⟩ := targetArea?_cases h
  · rfl
  · rw [imageArea?, Option.ite_none_right_eq_some] at himage
    obtain ⟨-, he⟩ := himage
    cases he
    rw [htarget, htarget]
    refine datum?_twin htwin ?_
    simp only [Area.isEven, isCommon, Bool.or_eq_true, Bool.and_eq_true, decide_eq_true_eq] at hr ⊢
    omega

theorem place?_alike (htwin : Twin here there) (hregs : s.regs = t.regs) {a : Argument} {r : Area} (ha : area? a = some r)
    (hr : r.isEven = true) (hvoice : ∀ t, a = .absoluteX t → s.regs.x.toNat < 3) :
    here.place? s a = there.place? t a := by
  have hy := s.regs.y.toNat_lt
  have hzero : (0 : UInt8).toNat = 0 := rfl
  cases a with
  | implied | accumulator | immediate => rfl
  | absolute target =>
    by_cases hwork : ∃ n, target = .symbol .workArea n
    · obtain ⟨n, rfl⟩ := hwork
      rfl
    · exact target?_twin htwin (area?_absolute (fun n hn => hwork ⟨n, hn⟩) ha) hr (by omega)
  | absoluteX target =>
    have hx := hvoice target rfl
    show here.target? target s.regs.x = there.target? target t.regs.x
    rw [← hregs]
    by_cases hwork : ∃ n, target = .symbol .workArea n
    · obtain ⟨n, rfl⟩ := hwork
      rfl
    · rw [area?_absoluteX fun n hn => hwork ⟨n, hn⟩] at ha
      exact target?_twin htwin ha hr (by omega)
  | absoluteY target =>
    show here.target? target s.regs.y = there.target? target t.regs.y
    rw [← hregs]
    exact target?_twin htwin ha hr (by omega)
  | _ => cases ha

/-- The place is neither a pointer nor half of an address. -/
def Place.isFree : Place → Prop
  | .page _ => False
  | .cell n => isAddress n = false
  | _ => True

theorem Area.isFree {r : Area} {x : UInt8} {p : Place} (h : r.Holds here x p) (hr : r.isEven = true) : p.isFree := by
  cases r with
  | inside => rcases h with rfl | rfl | ⟨v, rfl⟩ <;> trivial
  | chip =>
    obtain ⟨address, rfl⟩ := h
    trivial
  | cells n indexed =>
    cases h
    have hn : 15 ≤ n := of_decide_eq_true hr
    have hcell : n ≤ touchedCell x n indexed := by
      unfold touchedCell
      split <;> omega
    exact isAddress_eq_false.mpr (.inr (by omega))
  | image first last =>
    obtain ⟨n, -, -, rfl⟩ := h
    trivial

theorem Alike.load (h : Alike s t) {p : Place} (hp : p.isFree) : s.load p = t.load p := by
  cases p with
  | nothing | value => rfl
  | accumulator => exact congrArg Registers.a h.regs
  | cell n => exact h.cells n hp
  | page z => cases hp
  | chip address => simp only [State.load, h.sid]

theorem Alike.store (h : Alike s t) {p : Place} (hp : p.isFree) {v : UInt8} {s' : State} (hs : s.store p v = some s') :
    ∃ t', t.store p v = some t' ∧ Alike s' t' := by
  cases p with
  | nothing | accumulator | value => cases hs
  | cell n =>
    cases hs
    refine ⟨_, rfl, h.regs, h.saved, h.sid, fun k hk => ?_⟩
    show Function.update s.cells n v k = Function.update t.cells n v k
    rw [Function.update_apply, Function.update_apply, h.cells k hk]
  | page z => cases hp
  | chip address =>
    cases hs
    exact ⟨_, rfl, h.regs, h.saved, by rw [h.sid], h.cells⟩

theorem Alike.storeAll {p : Place} (hp : p.isFree) : ∀ {written : List Store} {s t s' : State}, Alike s t →
    written.foldlM (fun s w => s.store p w.value) s = some s' →
      ∃ t', written.foldlM (fun s w => s.store p w.value) t = some t' ∧ Alike s' t'
  | [], s, t, s', h, hs => by
    cases hs
    exact ⟨t, rfl, h⟩
  | w :: written, s, t, s', h, hs => by
    rw [List.foldlM_cons] at hs
    obtain ⟨s₁, hs₁, hrest⟩ := Option.bind_eq_some_iff.mp hs
    obtain ⟨t₁, ht₁, h₁⟩ := h.store hp hs₁
    obtain ⟨t', ht', h'⟩ := storeAll hp h₁ hrest
    refine ⟨t', ?_, h'⟩
    rw [List.foldlM_cons, ht₁]
    exact ht'

/-- An even instruction computes the same. -/
theorem compute_alike (htwin : Twin here there) (h : Alike s t) {m : Mnemonic} {a : Argument} {r : Area} {s' : State}
    (ha : area? a = some r) (hr : r.isEven = true) (hvoice : ∀ t, a = .absoluteX t → s.regs.x.toNat < 3)
    (hs : here.compute? m a s = some s') :
    ∃ t', there.compute? m a t = some t' ∧ Alike s' t' := by
  obtain ⟨p, hp, hholds⟩ := holds_area? here ha hvoice
  have hfree := Area.isFree hholds hr
  have hplace := place?_alike htwin h.regs ha hr hvoice
  rw [Site.compute?, Option.ite_none_right_eq_some, hp, Option.bind_some] at hs
  obtain ⟨hm, hs⟩ := hs
  rw [Site.compute?, if_pos hm, ← hplace, hp, Option.bind_some, ← h.load hfree, ← h.regs]
  have hstart : Alike { s with regs := plain (m.execute (fun _ => s.load p) p.operand s.regs).regs }
      { t with regs := plain (m.execute (fun _ => s.load p) p.operand s.regs).regs } :=
    ⟨rfl, h.saved, h.sid, h.cells⟩
  exact hstart.storeAll hfree hs

theorem steady_of_even {item : Item} (h : even item = true) : isSteady item = true := by
  cases item with
  | instruction m a =>
    rw [even, Bool.and_eq_true] at h
    exact h.1
  | _ => exact h

/-- What an instruction comes to in two runs that are in step. -/
inductive Alongside : Act → Act → Prop
  | next {s t : State} (h : Alike s t) : Alongside (.next s) (.next t)
  | jump (l : String) : Alongside (.jump l) (.jump l)
  | call (l : String) : Alongside (.call l) (.call l)
  | ret : Alongside .ret .ret

theorem act_alike (htwin : Twin here there) (h : Alike s t) {m : Mnemonic} {a : Argument}
    (heven : even (.instruction m a) = true) (hvoice : ∀ t, a = .absoluteX t → s.regs.x.toNat < 3) (hsaved : s.saved = []) :
    Alongside (here.act m a s) (there.act m a t) := by
  have hsteady := steady_of_even heven
  have hsaved' : t.saved = [] := h.saved ▸ hsaved
  have hother (hsteady : (if m = .rts then decide (a = .implied) else steadyHere m a) = true) :
      Alongside (here.actHere m a s) (there.actHere m a t) := by
    by_cases hrts : m = .rts
    · subst hrts
      have ha : a = .implied := by simpa using hsteady
      have hret (here : Site) {s : State} (hsaved : s.saved = []) : here.actHere .rts a s = .ret := if_pos ⟨ha, hsaved⟩
      rw [hret here hsaved, hret there hsaved']
      exact .ret
    · rw [if_neg hrts] at hsteady
      obtain ⟨s', hs', -⟩ := compute_steady here hsteady hvoice
      obtain ⟨r, hr⟩ : ∃ r, area? a = some r := by
        unfold steadyHere at hsteady
        split at hsteady
        · cases hsteady
        next r hr => exact ⟨r, hr⟩
      rw [even, hr, Bool.and_eq_true] at heven
      obtain ⟨t', ht', h'⟩ := compute_alike htwin h hr heven.2 hvoice hs'
      rw [actHere_eq_next hs', actHere_eq_next ht']
      exact .next h'
  cases a with
  | branch l =>
    obtain ⟨b, hb⟩ := taken?_isSome hsteady s.regs.p
    have hact (here : Site) (s : State) : here.act m (.branch l) s = .branch l s (taken? m s.regs.p) := rfl
    rw [hact, hact, ← h.regs, hb]
    cases b with
    | true => exact .jump l
    | false => exact .next h
  | absolute target =>
    cases target with
    | label l =>
      have hm : m = .jmp ∨ m = .jsr := by simpa [isSteady] using hsteady
      rcases hm with rfl | rfl
      · exact .jump l
      · have hcall (here : Site) {s : State} (hsaved : s.saved = []) :
            here.act .jsr (.absolute (.label l)) s = .call l := if_pos hsaved
        rw [hcall here hsaved, hcall there hsaved']
        exact .call l
    | _ => exact hother hsteady
  | _ => exact hother hsteady

/-- **Two runs of a block of even items** leave it the same way, in states that are alike. -/
theorem run_alike (htwin : Twin here there) : ∀ (items : List Item) (seek : Option String) {s t : State},
    (∀ item ∈ items, even item = true) → Voiced s.regs.x items → s.saved = [] → Alike s t →
      (run there seek items t).1 = (run here seek items s).1 ∧
        Alike (run here seek items s).2 (run there seek items t).2
  | [], none, _, _, _, _, _, h => ⟨rfl, h⟩
  | [], some l, _, _, _, _, _, h => ⟨rfl, h⟩
  | item :: rest, some l, s, t, heven, hx, hsaved, h => by
    have hrest (seek : Option String) := run_alike htwin rest seek (fun i hi => heven i (by simp [hi])) hx.tail hsaved h
    rw [run, run]
    split
    · exact hrest none
    · exact hrest (some l)
  | .label name :: rest, none, _, _, heven, hx, hsaved, h =>
    run_alike htwin rest none (fun i hi => heven i (by simp [hi])) hx.tail hsaved h
  | .data bytes :: rest, none, _, _, _, _, _, h => ⟨rfl, h⟩
  | .instruction m a :: rest, none, s, t, heven, hx, hsaved, h => by
    have hrest (seek : Option String) {s' t' : State} (hkeeps : Keeps (touched s.regs.x [.instruction m a]) s s')
        (h' : Alike s' t') : (run there seek rest t').1 = (run here seek rest s').1 ∧
          Alike (run here seek rest s').2 (run there seek rest t').2 :=
      run_alike htwin rest seek (fun i hi => heven i (by simp [hi])) (by rw [hkeeps.x]; exact hx.tail)
        (hkeeps.saved.trans hsaved) h'
    have hitem := heven (.instruction m a) (by simp)
    have hstep := act_steady here (steady_of_even hitem) hx.head hsaved
    have hboth := act_alike htwin h hitem hx.head hsaved
    rw [run, run]
    generalize here.act m a s = action at hstep hboth ⊢
    generalize there.act m a t = action' at hboth ⊢
    cases hboth with
    | next h' =>
      cases hstep with
      | next hkeeps _ => exact hrest none hkeeps h'
    | jump l => exact hrest (some l) (.refl s) h
    | call l => exact ⟨rfl, h⟩
    | ret => exact ⟨rfl, h⟩

end Alike

end Chiptune.Player.Minimal

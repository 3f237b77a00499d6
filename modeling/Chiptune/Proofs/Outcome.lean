/-
What a computation ends with, from what each of its parts ends with.

A job that succeeds without giving up anything that is heard says more than
one that merely succeeds, since what a player cannot hold is given up rather
than refused. `Job.Lossless` is a claim about such an outcome; it holds of a
sequence of jobs when it holds of each (`Job.Lossless.bind`). `Job.Ends` is a
claim about every outcome: what a job's result satisfies, and what its failure.
`Job.Tells` is one about the notices a job adds to its journal, also when it
fails.
-/
import Chiptune.Job
import Chiptune.Proofs.Lists

namespace Chiptune

variable {ε σ α β : Type}

theorem bind_eq_ok {x : Except ε α} {f : α → Except ε β} {b : β} :
    (x >>= f) = .ok b ↔ ∃ a, x = .ok a ∧ f a = .ok b := by
  cases x <;> simp [bind, Except.bind]

theorem mapM_eq_ok {f : α → Except ε β} :
    ∀ {l : List α} {r : List β}, l.mapM f = .ok r ↔ List.Forall₂ (fun a b => f a = .ok b) l r
  | [], r => by
    simp only [List.mapM_nil, List.forall₂_nil_left_iff]
    exact ⟨fun h => by cases h; rfl, fun h => by subst h; rfl⟩
  | a :: l, r => by
    simp only [List.mapM_cons, bind_eq_ok, List.forall₂_cons_left_iff, mapM_eq_ok (l := l)]
    constructor
    · rintro ⟨b, hb, bs, hbs, h⟩
      cases h
      exact ⟨b, bs, hb, hbs, rfl⟩
    · rintro ⟨b, bs, hb, hbs, rfl⟩
      exact ⟨b, hb, bs, hbs, rfl⟩

/-- A list of steps fails if one of them does. -/
theorem mapM_eq_error {f : α → Except ε β} : ∀ {l : List α},
    (∃ e, l.mapM f = .error e) ↔ ∃ a ∈ l, ∃ e, f a = .error e
  | [] => by simp [pure, Except.pure]
  | a :: l => by
    rw [List.mapM_cons, List.exists_mem_cons_iff, ← mapM_eq_error (l := l)]
    cases f a with
    | error e => simp [bind, Except.bind]
    | ok b => cases l.mapM f <;> simp [bind, Except.bind, pure, Except.pure]

/-- A loop that succeeds keeps what each of its steps keeps, which may be a fact about the rest of the list. -/
theorem foldlM_eq_ok {f : β → α → Except ε β} (I : List α → β → Prop)
    (hstep : ∀ a l b b', I (a :: l) b → f b a = .ok b' → I l b') :
    ∀ {l : List α} {b r : β}, I l b → l.foldlM f b = .ok r → I [] r
  | [], _, _, hb, h => by
    cases h
    exact hb
  | a :: l, b, r, hb, h => by
    rw [List.foldlM_cons] at h
    obtain ⟨b', hb', h⟩ := bind_eq_ok.mp h
    exact foldlM_eq_ok I hstep (hstep a l b b' hb hb') h

theorem forall_of_mapM_eq_ok {f : α → Except ε β} {P : β → Prop} (hP : ∀ a b, f a = .ok b → P b) :
    ∀ {l : List α} {r : List β}, l.mapM f = .ok r → ∀ b ∈ r, P b := by
  intro l r h
  induction mapM_eq_ok.mp h with
  | nil => simp
  | cons hb hr ih => simpa using ⟨hP _ _ hb, ih (mapM_eq_ok.mpr hr)⟩

/-- What undoes the steps undoes all of them. -/
theorem map_of_mapM_eq_ok {f : α → Except ε β} {g : β → α} :
    ∀ {l : List α} {r : List β}, (∀ a ∈ l, ∀ b, f a = .ok b → g b = a) → l.mapM f = .ok r →
      r.map g = l := by
  intro l r hg h
  induction mapM_eq_ok.mp h with
  | nil => rfl
  | cons hb hr ih =>
    rw [List.map_cons, hg _ (by simp) _ hb, ih (fun a ha => hg a (by simp [ha])) (mapM_eq_ok.mpr hr)]

theorem mapM_range_eq_ok {f : Nat → Except ε β} {r : List β}
    (h : ∀ i b, r[i]? = some b → f i = .ok b) : (List.range r.length).mapM f = .ok r := by
  refine mapM_eq_ok.mpr (List.forall₂_iff_get.mpr ⟨by simp, fun i hi hi' => ?_⟩)
  simpa using h i _ (List.getElem?_eq_getElem hi')

/-! ## Values and errors -/

/-- The computation's value satisfies `Q`, or its error `E`. -/
def Yields (x : Except ε α) (Q : α → Prop) (E : ε → Prop) : Prop :=
  match x with
  | .ok a => Q a
  | .error e => E e

namespace Yields

variable {E : ε → Prop}

theorem of_eq_ok {x : Except ε α} {Q : α → Prop} {a : α} (h : Yields x Q E) (hx : x = .ok a) : Q a := by
  subst hx
  exact h

theorem mono {x : Except ε α} {P Q : α → Prop} {E' : ε → Prop} (h : Yields x P E') (hPQ : ∀ a, P a → Q a)
    (hE : ∀ e, E' e → E e) : Yields x Q E := by
  cases x with
  | ok a => exact hPQ a h
  | error e => exact hE e h

theorem bind {x : Except ε α} {f : α → Except ε β} {P : α → Prop} {Q : β → Prop} (hx : Yields x P E)
    (hf : ∀ a, x = .ok a → P a → Yields (f a) Q E) : Yields (x >>= f) Q E := by
  cases x with
  | ok a => exact hf a rfl hx
  | error e => exact hx

/-- A loop over a list keeps what each of its steps keeps. -/
theorem foldlM {f : β → α → Except ε β} {P : β → Prop} : ∀ (l : List α) {b : β},
    (∀ a ∈ l, ∀ b, P b → Yields (f b a) P E) → P b → Yields (l.foldlM f b) P E
  | [], _, _, hb => hb
  | a :: l, b, h, hb => by
    rw [List.foldlM_cons]
    exact bind (h a (by simp) b hb) fun b' _ hb' => foldlM l (fun a ha => h a (by simp [ha])) hb'

theorem mapM {f : α → Except ε β} : ∀ l : List α, (∀ a ∈ l, Yields (f a) (fun _ => True) E) →
    Yields (l.mapM f) (fun bs => bs.length = l.length) E
  | [], _ => rfl
  | a :: l, h => by
    rw [List.mapM_cons]
    refine bind (h a (by simp)) fun b _ _ => bind (mapM l fun a ha => h a (by simp [ha])) fun bs _ hbs => ?_
    exact congrArg (· + 1) hbs

/-- Of numbered steps each is only taken when all before it have been. -/
theorem mapM_range {f : Nat → Except ε β} : ∀ n : Nat,
    (∀ i < n, (∀ k < i, ∃ b, f k = .ok b) → Yields (f i) (fun _ => True) E) →
      Yields ((List.range n).mapM f) (fun bs => bs.length = n) E
  | 0, _ => rfl
  | n + 1, h => by
    rw [List.range_succ, List.mapM_append]
    refine bind (mapM_range n fun i hi => h i (by omega)) fun bs hbs hlength => ?_
    have hearlier : ∀ k < n, ∃ b, f k = .ok b := fun k hk => by
      obtain ⟨b, -, hb⟩ := exists_getElem?_right (mapM_eq_ok.mp hbs) (List.getElem?_range hk)
      exact ⟨b, hb⟩
    have hlast : Yields ([n].mapM f) (fun bs => bs.length = 1) E := by
      refine mapM [n] fun i hi => ?_
      rw [List.mem_singleton.mp hi]
      exact h n (by omega) hearlier
    refine bind hlast fun last _ hlast => ?_
    show (bs ++ last).length = n + 1
    rw [List.length_append, hlength, hlast]

end Yields

/-! ## Runs of jobs -/

theorem run_get (s : σ) : (get : EStateM ε σ σ) s = .ok s s := rfl

theorem run_get_bind (f : σ → EStateM ε σ α) (s : σ) : (get >>= f) s = f s s := rfl

theorem run_bind_eq_ok {x : EStateM ε σ α} {f : α → EStateM ε σ β} {s s' : σ} {b : β} :
    (x >>= f) s = .ok b s' ↔ ∃ a s₁, x s = .ok a s₁ ∧ f a s₁ = .ok b s' := by
  simp only [bind, EStateM.bind]
  cases x s <;> simp

theorem run_foldlM_eq_ok {f : β → α → EStateM ε σ β} (I : List α → β → σ → Prop)
    (hstep : ∀ a l b s b' s', I (a :: l) b s → f b a s = .ok b' s' → I l b' s') :
    ∀ {l : List α} {b r : β} {s s' : σ}, I l b s → l.foldlM f b s = .ok r s' → I [] r s'
  | [], _, _, _, _, hb, h => by
    rw [List.foldlM_nil] at h
    cases h
    exact hb
  | a :: l, b, r, s, s', hb, h => by
    rw [List.foldlM_cons] at h
    obtain ⟨b', s₁, hb', h⟩ := run_bind_eq_ok.mp h
    exact run_foldlM_eq_ok I hstep (hstep a l b s b' s₁ hb hb') h

/-! ## Nothing given up -/

/-- The journal lists nothing that is heard. -/
def Journal.Quiet (j : Journal) : Prop := j.degradations.any (·.isLossy) = false

namespace Job

/-- Whenever the job succeeds with a quiet journal, the journal was quiet before and the result
satisfies `P`. -/
def Lossless (job : Job α) (P : α → Prop) : Prop :=
  ∀ j a j', job j = .ok a j' → j'.Quiet → j.Quiet ∧ P a

namespace Lossless

theorem mono {x : Job α} {P Q : α → Prop} (h : Lossless x P) (hPQ : ∀ a, P a → Q a) :
    Lossless x Q := fun j a j' hj hd => ⟨(h j a j' hj hd).1, hPQ a (h j a j' hj hd).2⟩

theorem pure {a : α} {P : α → Prop} (h : P a) : Lossless (Pure.pure a) P := by
  intro j b j' hj hd
  cases hj
  exact ⟨hd, h⟩

theorem throw {e : Failure} {P : α → Prop} : Lossless (throw e) P := by
  intro j b j' hj
  cases hj

theorem throw_bind {e : Failure} {f : α → Job β} {P : β → Prop} :
    Lossless (MonadExcept.throw e >>= f) P := by
  intro j b j' hj
  cases hj

theorem ofExcept {x : Except Failure α} : Lossless (ofExcept x) (fun a => x = .ok a) := by
  intro j b j' hj hd
  cases x with
  | ok a => cases hj; exact ⟨hd, rfl⟩
  | error e => cases hj

theorem notice {n : Notice} : Lossless (notice n) fun _ => True := by
  intro j b j' hj hd
  cases hj
  exact ⟨hd, trivial⟩

/-- A job that gives up something that is heard is never lossless. -/
theorem degrade {d : Degradation} {P : Unit → Prop} (h : d.isLossy = true) :
    Lossless (degrade d) P := by
  intro j b j' hj hd
  cases hj
  simp [Journal.Quiet, h] at hd

/-- The second job may be looked at before it is known that the first one satisfies `P`, since
what it lists is what tells that the first one listed nothing. -/
theorem bind {x : Job α} {f : α → Job β} {P : α → Prop} {Q : β → Prop} (hx : Lossless x P)
    (hf : ∀ a, Lossless (f a) fun b => P a → Q b) : Lossless (x >>= f) Q := by
  intro j b j' hj hd
  obtain ⟨a, j₁, h₁, h₂⟩ := run_bind_eq_ok.mp hj
  obtain ⟨hd₁, hQ⟩ := hf a _ _ _ h₂ hd
  obtain ⟨hd₀, hP⟩ := hx _ _ _ h₁ hd₁
  exact ⟨hd₀, hQ hP⟩

theorem mapM {f : α → Job β} {R : α → β → Prop} (h : ∀ a, Lossless (f a) (R a)) :
    ∀ l : List α, Lossless (l.mapM f) fun bs => List.Forall₂ R l bs
  | [] => by
    rw [List.mapM_nil]
    exact pure .nil
  | a :: l => by
    rw [List.mapM_cons]
    refine bind (h a) fun b => bind (mapM h l) fun bs => pure fun hbs hb => ?_
    exact .cons hb hbs

/-- Steps that leave the state as it is when nothing is given up leave it so together. -/
theorem foldlM {f : β → α → Job β} {R : β → α → Prop}
    (h : ∀ b a, Lossless (f b a) fun b' => b' = b ∧ R b a) :
    ∀ (l : List α) (b : β), Lossless (l.foldlM f b) fun b' => b' = b ∧ ∀ a ∈ l, R b a
  | [], b => by
    rw [List.foldlM_nil]
    exact pure (by simp)
  | a :: l, b => by
    rw [List.foldlM_cons]
    refine bind (h b a) fun b₁ => (foldlM h l b₁).mono ?_
    rintro b' ⟨rfl, hl⟩ ⟨rfl, ha⟩
    exact ⟨rfl, by simpa using ⟨ha, hl⟩⟩

/-- A loop whose every round gives something up is lossless only if it has none. -/
theorem forIn {f : α → PUnit → Job (ForInStep PUnit)} (h : ∀ a u, Lossless (f a u) fun _ => False) :
    ∀ l : List α, Lossless (ForIn.forIn l PUnit.unit f) fun _ => l = []
  | [] => by
    rw [List.forIn_nil]
    exact pure rfl
  | a :: l => by
    rw [List.forIn_cons]
    refine bind (h a _) fun r => ?_
    cases r with
    | done u => exact pure False.elim
    | yield u => exact (forIn h l).mono fun _ _ h => h.elim

theorem collecting {x : Job α} {P : α → Prop} (h : Lossless x P) {j j' : Journal} {a : α}
    {given : List Degradation} (hj : collecting x j = .ok (a, given) j')
    (hquiet : given.any (·.isLossy) = false) : P a := by
  unfold Job.collecting at hj
  split at hj
  next a' j₁ hx =>
    cases hj
    exact (h _ _ _ hx hquiet).2
  · cases hj

end Lossless

/-! ## Either way -/

/-- However the job ends, its result satisfies `Q` or its failure satisfies `E`. -/
def Ends (job : Job α) (Q : α → Prop) (E : Failure → Prop) : Prop :=
  ∀ j,
    match job j with
    | .ok a _ => Q a
    | .error e _ => E e

namespace Ends

variable {E : Failure → Prop}

theorem mono {x : Job α} {P Q : α → Prop} {E' : Failure → Prop} (h : Ends x P E') (hPQ : ∀ a, P a → Q a)
    (hE : ∀ e, E' e → E e) : Ends x Q E := by
  intro j
  have hends := h j
  cases hx : x j with
  | ok a j' =>
    rw [hx] at hends
    exact hPQ a hends
  | error e j' =>
    rw [hx] at hends
    exact hE e hends

theorem pure {a : α} {Q : α → Prop} (h : Q a) : Ends (Pure.pure a) Q E := fun _ => h

theorem throw {e : Failure} {Q : α → Prop} (h : E e) : Ends (throw e) Q E := fun _ => h

theorem throw_bind {e : Failure} {f : α → Job β} {Q : β → Prop} (h : E e) :
    Ends (MonadExcept.throw e >>= f) Q E := fun _ => h

theorem ofExcept {x : Except Failure α} (h : ∀ e, x = .error e → E e) :
    Ends (Job.ofExcept x) (fun a => x = .ok a) E := by
  cases x with
  | ok a => exact pure rfl
  | error e => exact throw (h e rfl)

/-- A computation's value and error are the job's. -/
theorem ofYields {x : Except Failure α} {Q : α → Prop} (h : Yields x Q E) : Ends (Job.ofExcept x) Q E := by
  cases x with
  | ok a => exact pure h
  | error e => exact throw h

theorem ofOk {a : α} : Ends (Job.ofExcept (.ok a)) (· = a) E := pure rfl

theorem notice {n : Notice} : Ends (notice n) (fun _ => True) E := fun _ => trivial

theorem degrade {d : Degradation} : Ends (degrade d) (fun _ => True) E := fun _ => trivial

theorem report {d : Degradation} : Ends (report d) (fun _ => True) E := fun _ => trivial

theorem bind {x : Job α} {f : α → Job β} {P : α → Prop} {Q : β → Prop} (hx : Ends x P E)
    (hf : ∀ a, P a → Ends (f a) Q E) : Ends (x >>= f) Q E := by
  intro j
  have hends := hx j
  simp only [Bind.bind, EStateM.bind]
  cases hj : x j with
  | ok a j' =>
    rw [hj] at hends
    exact hf a hends j'
  | error e j' =>
    rw [hj] at hends
    exact hends

theorem mapM {f : α → Job β} {R : α → β → Prop} : ∀ l : List α, (∀ a ∈ l, Ends (f a) (R a) E) →
    Ends (l.mapM f) (List.Forall₂ R l) E
  | [], _ => by
    rw [List.mapM_nil]
    exact pure .nil
  | a :: l, h => by
    rw [List.mapM_cons]
    refine bind (h a (by simp)) fun b hb => bind (mapM l fun a ha => h a (by simp [ha])) fun bs hbs => ?_
    exact pure (.cons hb hbs)

/-- A loop over a list keeps what each of its steps keeps. -/
theorem foldlM {f : β → α → Job β} {P : β → Prop} : ∀ (l : List α) {b : β},
    (∀ a ∈ l, ∀ b, P b → Ends (f b a) P E) → P b → Ends (l.foldlM f b) P E
  | [], b, _, hb => by
    rw [List.foldlM_nil]
    exact pure hb
  | a :: l, b, h, hb => by
    rw [List.foldlM_cons]
    exact bind (h a (by simp) b hb) fun b' hb' => foldlM l (fun a ha => h a (by simp [ha])) hb'

theorem forIn {f : α → PUnit → Job (ForInStep PUnit)} (h : ∀ a u, Ends (f a u) (fun _ => True) E) :
    ∀ l : List α, Ends (ForIn.forIn l PUnit.unit f) (fun _ => True) E
  | [] => by
    rw [List.forIn_nil]
    exact pure trivial
  | a :: l => by
    rw [List.forIn_cons]
    refine bind (h a _) fun r _ => ?_
    cases r with
    | done u => exact pure trivial
    | yield u => exact forIn h l

theorem collecting {x : Job α} {Q : α → Prop} (h : Ends x Q E) :
    Ends (Job.collecting x) (fun r => Q r.1) E := by
  intro j
  have hends := h { j with degradations := [] }
  unfold Job.collecting
  cases hx : x { j with degradations := [] } with
  | ok a j' =>
    rw [hx] at hends
    exact hends
  | error e j' =>
    rw [hx] at hends
    exact hends

/-- Results and failures may be told apart. -/
theorem of_run {x : Job α} {P Q : α → Prop} (hQ : ∀ j a j', x j = .ok a j' → Q a) (h : Ends x P E) : Ends x Q E := by
  intro j
  have hends := h j
  cases hx : x j with
  | ok a j' => exact hQ j a j' hx
  | error e j' =>
    rw [hx] at hends
    exact hends

/-- What a job that succeeded ends with. -/
theorem of_eq_ok {x : Job α} {Q : α → Prop} (h : Ends x Q E) {j j' : Journal} {a : α} (hx : x j = .ok a j') : Q a := by
  have hends := h j
  rw [hx] at hends
  exact hends

/-- A job that fails for no reason has a result. -/
theorem exists_ok {x : Job α} {Q : α → Prop} (h : Ends x Q E) (hE : ∀ e, ¬ E e) (j : Journal) :
    ∃ a j', x j = .ok a j' ∧ Q a := by
  have hends := h j
  cases hx : x j with
  | ok a j' =>
    rw [hx] at hends
    exact ⟨a, j', rfl, hends⟩
  | error e j' =>
    rw [hx] at hends
    exact absurd hends (hE e)

/-- A job that has no result fails. -/
theorem exists_error {x : Job α} {Q : α → Prop} (h : Ends x Q E) (hQ : ∀ a, ¬ Q a) (j : Journal) :
    ∃ e j', x j = .error e j' ∧ E e := by
  have hends := h j
  cases hx : x j with
  | ok a j' =>
    rw [hx] at hends
    exact absurd hends (hQ a)
  | error e j' =>
    rw [hx] at hends
    exact ⟨e, j', rfl, hends⟩

end Ends

theorem ofExcept_ok_bind {a : α} {f : α → Job β} : ofExcept (.ok a) >>= f = f a := by
  rw [ofExcept, pure_bind]

theorem run_ofExcept_eq_ok {x : Except Failure α} {j j' : Journal} {a : α} (h : ofExcept x j = .ok a j') :
    x = .ok a ∧ j' = j := by
  cases x with
  | ok a => cases h; exact ⟨rfl, rfl⟩
  | error e => cases h

theorem ofExcept_eq_ok {x : Except Failure α} {j j' : Journal} {a : α} (h : ofExcept x j = .ok a j') :
    x = .ok a := (run_ofExcept_eq_ok h).1

theorem report_eq_ok {d : Degradation} {j j' : Journal} {u : Unit} (h : report d j = .ok u j') :
    j'.degradations = j.degradations ++ [d] := by
  cases h
  rfl

end Job

/-! ## What is told -/

/-- A journal tells all that an earlier one told, and besides only what satisfies `P`. -/
def Journal.Continues (P : Notice → Prop) (j j' : Journal) : Prop :=
  ∃ told, j'.notices = j.notices ++ told ∧ ∀ n ∈ told, P n

namespace Journal.Continues

variable {P Q : Notice → Prop} {j j₁ j₂ : Journal}

theorem refl (j : Journal) : Continues P j j := ⟨[], (List.append_nil _).symm, nofun⟩

theorem trans (h : Continues P j j₁) (h' : Continues P j₁ j₂) : Continues P j j₂ := by
  obtain ⟨told, htold, hP⟩ := h
  obtain ⟨later, hlater, hP'⟩ := h'
  refine ⟨told ++ later, by rw [hlater, htold, List.append_assoc], fun n hn => ?_⟩
  exact (List.mem_append.mp hn).elim (hP n) (hP' n)

theorem mono (h : Continues P j j₁) (hPQ : ∀ n, P n → Q n) : Continues Q j j₁ := by
  obtain ⟨told, htold, hP⟩ := h
  exact ⟨told, htold, fun n hn => hPQ n (hP n hn)⟩

end Journal.Continues

namespace Job

/-- The journal that a job ends with. -/
def journalOf : EStateM.Result Failure Journal α → Journal
  | .ok _ j | .error _ j => j

/-- However the job ends, it tells only what satisfies `P`. -/
def Tells (job : Job α) (P : Notice → Prop) : Prop := ∀ j : Journal, j.Continues P (journalOf (job j))

namespace Tells

variable {P : Notice → Prop}

theorem mono {x : Job α} {Q : Notice → Prop} (h : Tells x P) (hPQ : ∀ n, P n → Q n) : Tells x Q :=
  fun j => (h j).mono hPQ

theorem pure {a : α} : Tells (Pure.pure a) P := .refl

theorem throw {e : Failure} : Tells (throw e : Job α) P := .refl

theorem throw_bind {e : Failure} {f : α → Job β} : Tells (MonadExcept.throw e >>= f) P := .refl

theorem ofExcept : ∀ {x : Except Failure α}, Tells (Job.ofExcept x) P
  | .ok _ => pure
  | .error _ => throw

theorem notice {n : Notice} (h : P n) : Tells (notice n) P := fun _ => ⟨[n], rfl, by simpa using h⟩

theorem bind {x : Job α} {f : α → Job β} (hx : Tells x P) (hf : ∀ a, Tells (f a) P) : Tells (x >>= f) P := by
  intro j
  have htells := hx j
  simp only [Bind.bind, EStateM.bind]
  cases hj : x j with
  | ok a j' =>
    rw [hj] at htells
    exact htells.trans (hf a j')
  | error e j' =>
    rw [hj] at htells
    exact htells

/-- A loop tells what its rounds tell. -/
theorem forIn {f : α → PUnit → Job (ForInStep PUnit)} : ∀ l : List α, (∀ a ∈ l, ∀ u, Tells (f a u) P) →
    Tells (ForIn.forIn l PUnit.unit f) P
  | [], _ => by
    rw [List.forIn_nil]
    exact pure
  | a :: l, h => by
    rw [List.forIn_cons]
    refine bind (h a (by simp) _) fun r => ?_
    cases r with
    | done u => exact pure
    | yield u => exact forIn l fun a ha => h a (by simp [ha])

end Tells

end Job

end Chiptune

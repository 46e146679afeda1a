/-
  TabletopDice.Proofs.Roll.Draws
  ──────────────────────────────────────
  **ROLLING WITHOUT PATIENCE: the words that the dice of an expression find.**

  A die draws words until one is accepted; `Die.Finds` says which face that
  gives and what source it leaves, with no limit on the number of words.
  `Draws` lets die after die find its word.  What a roll does is then a
  matter of dealing out the faces to the terms:

    • `Expression.outcome_of_draws` — enough patience rolls the dealt faces,
      and too little gives nothing rather than another roll,
    • `Expression.draws_of_roll` — nothing else is ever rolled.
-/
import Mathlib.Data.List.Forall2
import TabletopDice.Roll.Basic

namespace TabletopDice

variable {σ : Type}

/-! ## §1. Patience. -/

namespace Roller

/-- Two rolls in a row succeed where each of them does, the second on the source that
the first leaves. -/
theorem bind_eq_some_iff {α β : Type} {first : Roller σ α} {second : α → Roller σ β}
    {source rest : σ} {b : β} :
    (first >>= second) source = some (b, rest) ↔
      ∃ a between, first source = some (a, between) ∧ second a between = some (b, rest) := by
  show (first source).bind (fun p => second p.1 p.2) = some (b, rest) ↔ _
  rw [Option.bind_eq_some_iff]
  constructor
  · rintro ⟨⟨a, between⟩, hfirst, hsecond⟩
    exact ⟨a, between, hfirst, hsecond⟩
  · rintro ⟨a, between, hfirst, hsecond⟩
    exact ⟨(a, between), hfirst, hsecond⟩

theorem mapM_nil_eq_some_iff {α β : Type} {f : α → Roller σ β} {source rest : σ}
    {bs : List β} : ([].mapM f) source = some (bs, rest) ↔ bs = [] ∧ rest = source := by
  rw [List.mapM_nil]
  show some ([], source) = some (bs, rest) ↔ _
  rw [Option.some.injEq, Prod.mk.injEq, eq_comm, @eq_comm _ source]

/-- Rolling several things is rolling the first, and then the others. -/
theorem mapM_cons_eq_some_iff {α β : Type} {f : α → Roller σ β} {a : α} {as : List α}
    {source rest : σ} {bs : List β} :
    ((a :: as).mapM f) source = some (bs, rest) ↔
      ∃ b between more, f a source = some (b, between) ∧
        (as.mapM f) between = some (more, rest) ∧ bs = b :: more := by
  rw [List.mapM_cons, bind_eq_some_iff]
  constructor
  · rintro ⟨b, between, hf, hmore⟩
    obtain ⟨more, last, hmap, hpure⟩ := bind_eq_some_iff.1 hmore
    cases hpure
    exact ⟨b, between, more, hf, hmap, rfl⟩
  · rintro ⟨b, between, more, hf, hmap, rfl⟩
    exact ⟨b, between, hf, bind_eq_some_iff.2 ⟨more, rest, hmap, rfl⟩⟩

end Roller

/-- **The outcome of rolling, whatever the patience**: with enough of it the
roll gives this value and leaves this source, and it never gives another. -/
structure Outcome {α : Type} (roll : Nat → Roller σ α) (source : σ) (value : α) (rest : σ) :
    Prop where
  settles : ∃ enough, ∀ patience, enough ≤ patience →
    roll patience source = some (value, rest)
  only : ∀ patience result, roll patience source = some result → result = (value, rest)

namespace Outcome

variable {α β : Type}

theorem pure (source : σ) (value : α) :
    Outcome (fun _ => (Pure.pure value : Roller σ α)) source value source where
  settles := ⟨0, fun _ _ => rfl⟩
  only := by
    intro _ result h
    injection h with h
    exact h.symm

/-- **One after the other**: the second roll goes on where the first stopped,
and the larger patience is enough for both. -/
theorem bind {first : Nat → Roller σ α} {second : Nat → α → Roller σ β}
    {source between rest : σ} {a : α} {b : β} (hfirst : Outcome first source a between)
    (hsecond : Outcome (fun patience => second patience a) between b rest) :
    Outcome (fun patience => first patience >>= second patience) source b rest where
  settles := by
    obtain ⟨n, hn⟩ := hfirst.settles
    obtain ⟨m, hm⟩ := hsecond.settles
    refine ⟨max n m, fun patience hle => Roller.bind_eq_some_iff.2 ?_⟩
    exact ⟨a, between, hn patience (by omega), hm patience (by omega)⟩
  only := by
    -- A success of both passes through the one outcome of the first.
    rintro patience ⟨value, last⟩ h
    obtain ⟨a', between', h1, h2⟩ := Roller.bind_eq_some_iff.1 h
    cases hfirst.only patience _ h1
    exact hsecond.only patience _ h2

theorem map {roll : Nat → Roller σ α} {source rest : σ} {a : α} (f : α → β)
    (h : Outcome roll source a rest) :
    Outcome (fun patience => do return f (← roll patience)) source (f a) rest :=
  h.bind (pure rest (f a))

theorem mapM_nil (roll : Nat → α → Roller σ β) (source : σ) :
    Outcome (fun patience => [].mapM (roll patience)) source [] source := by
  simp only [List.mapM_nil]
  exact pure source []

/-- **The first and then the others**, each with enough patience. -/
theorem mapM_cons {roll : Nat → α → Roller σ β} {a : α} {as : List α} {b : β} {bs : List β}
    {source between rest : σ} (hfirst : Outcome (fun patience => roll patience a) source b between)
    (hmore : Outcome (fun patience => as.mapM (roll patience)) between bs rest) :
    Outcome (fun patience => (a :: as).mapM (roll patience)) source (b :: bs) rest := by
  simp only [List.mapM_cons]
  exact hfirst.bind (hmore.map (b :: ·))

end Outcome

/-! ## §2. One die. -/

variable [WordSource σ]

namespace Die

/-- **The die finds an accepted word** in the source: it shows the face, and
what is left is what stands behind that word. -/
inductive Finds (sides : UInt32) : σ → UInt32 → σ → Prop
  | accepted {source : σ} {face : UInt32} :
      faceOf? sides (WordSource.next source).1 = some face →
      Finds sides source face (WordSource.next source).2
  | rejected {source rest : σ} {face : UInt32} :
      faceOf? sides (WordSource.next source).1 = none →
      Finds sides (WordSource.next source).2 face rest → Finds sides source face rest

/-- An accepted word ends the throw. -/
theorem throw_succ_of_some {sides face : UInt32} {source : σ}
    (h : faceOf? sides (WordSource.next source).1 = some face) (patience : Nat) :
    throw sides (patience + 1) source = some (face, (WordSource.next source).2) := by
  simp only [throw, h]

/-- A rejected word costs one of the patience. -/
theorem throw_succ_of_none {sides : UInt32} {source : σ}
    (h : faceOf? sides (WordSource.next source).1 = none) (patience : Nat) :
    throw sides (patience + 1) source = throw sides patience (WordSource.next source).2 := by
  simp only [throw, h]

/-- **What a die finds it throws**, with enough patience. -/
theorem outcome_of_finds {sides face : UInt32} {source rest : σ}
    (h : Finds sides source face rest) : Outcome (throw sides) source face rest := by
  induction h with
  | accepted hface =>
      constructor
      -- One word is enough here.
      · refine ⟨1, fun patience hle => ?_⟩
        obtain ⟨k, rfl⟩ : ∃ k, patience = k + 1 := ⟨patience - 1, by omega⟩
        exact throw_succ_of_some hface k
      · intro patience result hr
        cases patience with
        | zero => cases hr
        | succ k =>
            rw [throw_succ_of_some hface] at hr
            injection hr with hr
            exact hr.symm
  | rejected hnone _ ih =>
      -- One word more than it takes behind the rejected one.
      constructor
      · obtain ⟨enough, henough⟩ := ih.settles
        refine ⟨enough + 1, fun patience hle => ?_⟩
        obtain ⟨k, rfl⟩ : ∃ k, patience = k + 1 := ⟨patience - 1, by omega⟩
        rw [throw_succ_of_none hnone]
        exact henough k (by omega)
      · intro patience result hr
        cases patience with
        | zero => cases hr
        | succ k =>
            rw [throw_succ_of_none hnone] at hr
            exact ih.only k result hr

/-- **What a die throws it has found**, whatever the patience. -/
theorem finds_of_throw {sides face : UInt32} {rest : σ} :
    ∀ {patience : Nat} {source : σ}, throw sides patience source = some (face, rest) →
      Finds sides source face rest := by
  intro patience
  induction patience with
  | zero =>
      intro source h
      cases h
  | succ patience ih =>
      intro source h
      -- The next word is accepted, or the throw goes on with less patience.
      cases hface : faceOf? sides (WordSource.next source).1 with
      | some found =>
          rw [throw_succ_of_some hface] at h
          cases h
          exact .accepted hface
      | none =>
          rw [throw_succ_of_none hface] at h
          exact .rejected hface (ih h)

/-- The face is one of the sides. -/
def Shows (face sides : UInt32) : Prop := 1 ≤ face.toNat ∧ face.toNat ≤ sides.toNat

/-- A die that finds a word shows one of its faces. -/
theorem Finds.shows {sides face : UInt32} {source rest : σ}
    (h : Finds sides source face rest) : Shows face sides := by
  induction h with
  | accepted hface => exact face_between hface
  | rejected _ _ ih => exact ih

/-- Of several equal dice each shows one of their faces. -/
theorem shows_of_mem {n : Nat} {sides : UInt32} :
    ∀ {shown : List UInt32}, List.Forall₂ Shows shown (List.replicate n sides) →
      ∀ face ∈ shown, Shows face sides := by
  induction n with
  | zero =>
      intro shown h face hmem
      cases h
      cases hmem
  | succ n ih =>
      intro shown h face hmem
      cases h with
      | cons hfirst hmore =>
          rcases List.mem_cons.1 hmem with rfl | hmem
          · exact hfirst
          · exact ih hmore face hmem

/-- And faces of that kind can be shown by as many dice. -/
theorem shows_replicate {sides : UInt32} {shown : List UInt32}
    (h : ∀ face ∈ shown, Shows face sides) :
    List.Forall₂ Shows shown (List.replicate shown.length sides) := by
  induction shown with
  | nil => exact .nil
  | cons face shown ih =>
      exact .cons (h face List.mem_cons_self) (ih fun f hf => h f (List.mem_cons_of_mem face hf))

end Die

/-! ## §3. One die after the other. -/

/-- **Each die finds its word**, from left to right over one source. -/
inductive Draws : List UInt32 → σ → List UInt32 → σ → Prop
  | done {source : σ} : Draws [] source [] source
  | die {sides face : UInt32} {others faces : List UInt32} {source between rest : σ} :
      Die.Finds sides source face between → Draws others between faces rest →
      Draws (sides :: others) source (face :: faces) rest

namespace Draws

/-- Every die shows one of its own faces. -/
theorem shows {dice faces : List UInt32} {source rest : σ} (h : Draws dice source faces rest) :
    List.Forall₂ Die.Shows faces dice := by
  induction h with
  | done => exact .nil
  | die hfinds _ ih => exact .cons hfinds.shows ih

theorem length_eq {dice faces : List UInt32} {source rest : σ}
    (h : Draws dice source faces rest) : faces.length = dice.length := h.shows.length_eq

/-- Drawing for two groups is drawing for the one and then for the other. -/
theorem append_iff {front back faces : List UInt32} {source rest : σ} :
    Draws (front ++ back) source faces rest ↔
      ∃ between, Draws front source (faces.take front.length) between ∧
        Draws back between (faces.drop front.length) rest := by
  -- Along the dice in front; the faces are taken and dropped with them.
  induction front generalizing source faces with
  | nil =>
      constructor
      · intro h
        exact ⟨source, .done, h⟩
      · rintro ⟨between, hfront, hback⟩
        cases hfront
        exact hback
  | cons sides front ih =>
      constructor
      · intro h
        cases h with
        | die hfinds hmore =>
            obtain ⟨between, hfront, hback⟩ := ih.1 hmore
            exact ⟨between, .die hfinds hfront, hback⟩
      · rintro ⟨between, hfront, hback⟩
        cases faces with
        | nil => cases hfront
        | cons face faces =>
            cases hfront with
            | die hfinds hmore => exact .die hfinds (ih.2 ⟨between, hmore, hback⟩)

/-- Dice that find their words are thrown, one after the other. -/
theorem outcome {dice faces : List UInt32} {source rest : σ}
    (h : Draws dice source faces rest) :
    Outcome (fun patience => dice.mapM fun sides => Die.throw sides patience)
      source faces rest := by
  induction h with
  | done => exact Outcome.mapM_nil _ _
  | die hfinds _ ih => exact Outcome.mapM_cons (Die.outcome_of_finds hfinds) ih

end Draws

/-- Dice that are thrown have found their words. -/
theorem draws_of_mapM {patience : Nat} {dice : List UInt32} :
    ∀ {source rest : σ} {faces : List UInt32},
      (dice.mapM fun sides => Die.throw sides patience) source = some (faces, rest) →
      Draws dice source faces rest := by
  induction dice with
  | nil =>
      intro source rest faces h
      obtain ⟨rfl, rfl⟩ := Roller.mapM_nil_eq_some_iff.1 h
      exact .done
  | cons sides dice ih =>
      intro source rest faces h
      obtain ⟨face, between, more, hface, hmore, rfl⟩ := Roller.mapM_cons_eq_some_iff.1 h
      exact .die (Die.finds_of_throw hface) (ih hmore)

/-! ## §4. Dealing the faces to the terms. -/

namespace Term

/-- The sides of every die that a term throws. -/
def dieSides : Term → List UInt32
  | .dice d => List.replicate d.count.toNat d.sides
  | .constant _ => []

/-- The part of a term whose dice showed the given faces. -/
def part : Term → List UInt32 → Part
  | .dice d, shown => d.part shown
  | .constant c, _ => c.roll

@[simp] theorem part_term (t : Term) (shown : List UInt32) : (t.part shown).term = t := by
  cases t with
  | dice d => rfl
  | constant c => rfl

/-- What the dice of a term find is what the term rolls. -/
theorem outcome_of_draws {t : Term} {source rest : σ} {shown : List UInt32}
    (h : Draws t.dieSides source shown rest) :
    Outcome (fun patience => t.roll patience) source (t.part shown) rest := by
  cases t with
  | dice d => exact (Draws.outcome h).map d.part
  -- A constant has no dice and draws no word.
  | constant c =>
      cases h
      exact Outcome.pure source c.roll

/-- What a term rolls is what its dice have found. -/
theorem draws_of_roll {t : Term} {patience : Nat} {source rest : σ} {p : Part}
    (h : t.roll patience source = some (p, rest)) :
    ∃ shown, Draws t.dieSides source shown rest ∧ p = t.part shown := by
  cases t with
  | dice d =>
      obtain ⟨shown, between, hthrow, hpure⟩ := Roller.bind_eq_some_iff.1 h
      cases hpure
      exact ⟨shown, draws_of_mapM hthrow, rfl⟩
  | constant c =>
      cases h
      exact ⟨[], .done, rfl⟩

end Term

/-- Give each term as many faces as it has dice. -/
def deal : List Term → List UInt32 → List Part
  | [], _ => []
  | t :: ts, faces =>
      t.part (faces.take t.dieSides.length) :: deal ts (faces.drop t.dieSides.length)

/-- As many faces as a term has dice are its own. -/
theorem deal_cons_append {t : Term} {shown : List UInt32}
    (h : shown.length = t.dieSides.length) (ts : List Term) (faces : List UInt32) :
    deal (t :: ts) (shown ++ faces) = t.part shown :: deal ts faces := by
  show t.part _ :: deal ts _ = _
  rw [← h, List.take_left, List.drop_left]

/-- Every term has its part, in order. -/
theorem terms_deal (ts : List Term) : ∀ faces, (deal ts faces).map Part.term = ts := by
  induction ts with
  | nil =>
      intro faces
      rfl
  | cons t ts ih =>
      intro faces
      show (t.part _).term :: (deal ts _).map Part.term = t :: ts
      rw [Term.part_term, ih]

/-- **What holds of every term and any faces its dice can show holds of every
part** that is dealt. -/
theorem forall_mem_deal {ts : List Term} {P : Part → Prop}
    (h : ∀ t ∈ ts, ∀ shown, List.Forall₂ Die.Shows shown t.dieSides → P (t.part shown)) :
    ∀ {faces : List UInt32}, List.Forall₂ Die.Shows faces (ts.flatMap Term.dieSides) →
      ∀ p ∈ deal ts faces, P p := by
  -- Along the terms: each takes its own faces, and the others share out what is left.
  induction ts with
  | nil =>
      intro faces _ p hp
      cases hp
  | cons t ts ih =>
      intro faces hfaces p hp
      rw [List.flatMap_cons] at hfaces
      rcases List.mem_cons.1 hp with rfl | hp
      · exact h t List.mem_cons_self _ (List.forall₂_take_append _ _ _ hfaces)
      · exact ih (fun u hu => h u (List.mem_cons_of_mem t hu))
          (List.forall₂_drop_append _ _ _ hfaces) p hp

/-- Term after term, over one source. -/
theorem outcome_of_draws {ts : List Term} :
    ∀ {source rest : σ} {faces : List UInt32},
      Draws (ts.flatMap Term.dieSides) source faces rest →
      Outcome (fun patience => ts.mapM (Term.roll patience)) source (deal ts faces) rest := by
  induction ts with
  | nil =>
      intro source rest faces h
      cases h
      exact Outcome.mapM_nil _ _
  | cons t ts ih =>
      intro source rest faces h
      rw [List.flatMap_cons] at h
      -- The dice of the first term draw first, and leave the source to the others.
      obtain ⟨between, hfirst, hmore⟩ := Draws.append_iff.1 h
      exact Outcome.mapM_cons (Term.outcome_of_draws hfirst) (ih hmore)

/-- And back: what the terms roll are the faces their dice have found, dealt out. -/
theorem draws_of_mapM_roll {patience : Nat} {ts : List Term} :
    ∀ {source rest : σ} {parts : List Part},
      (ts.mapM (Term.roll patience)) source = some (parts, rest) →
      ∃ faces, Draws (ts.flatMap Term.dieSides) source faces rest ∧ parts = deal ts faces := by
  induction ts with
  | nil =>
      intro source rest parts h
      obtain ⟨rfl, rfl⟩ := Roller.mapM_nil_eq_some_iff.1 h
      exact ⟨[], .done, rfl⟩
  | cons t ts ih =>
      intro source rest parts h
      obtain ⟨p, between, more, hfirst, hmore, rfl⟩ := Roller.mapM_cons_eq_some_iff.1 h
      obtain ⟨shown, hshown, rfl⟩ := Term.draws_of_roll hfirst
      obtain ⟨faces, hfaces, rfl⟩ := ih hmore
      have hlen := hshown.length_eq
      refine ⟨shown ++ faces, ?_, (deal_cons_append hlen ts faces).symm⟩
      rw [List.flatMap_cons, Draws.append_iff, ← hlen, List.take_left, List.drop_left]
      exact ⟨between, hshown, hfaces⟩

namespace Expression

/-- The sides of every die that an expression throws, in the order of the
throws. -/
def dieSides (e : Expression) : List UInt32 := e.terms.flatMap Term.dieSides

/-- The roll of an expression whose dice showed the given faces. -/
def dealt (e : Expression) (faces : List UInt32) : Roll := Roll.ofParts (deal e.terms faces)

/-- **What the dice find is what is rolled**, with enough patience. -/
theorem outcome_of_draws {e : Expression} {source rest : σ} {faces : List UInt32}
    (h : Draws e.dieSides source faces rest) :
    Outcome (fun patience => e.roll patience) source (e.dealt faces) rest :=
  (TabletopDice.outcome_of_draws h).map Roll.ofParts

/-- **What is rolled is what the dice find**, whatever the patience. -/
theorem draws_of_roll {e : Expression} {patience : Nat} {source rest : σ} {r : Roll}
    (h : e.roll patience source = some (r, rest)) :
    ∃ faces, Draws e.dieSides source faces rest ∧ r = e.dealt faces := by
  obtain ⟨parts, between, hparts, hpure⟩ := Roller.bind_eq_some_iff.1 h
  cases hpure
  obtain ⟨faces, hfaces, rfl⟩ := draws_of_mapM_roll hparts
  exact ⟨faces, hfaces, rfl⟩

end Expression

end TabletopDice

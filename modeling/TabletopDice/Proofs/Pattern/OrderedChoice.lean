/-
  TabletopDice.Proofs.Pattern.OrderedChoice
  ──────────────────────────────────────
  **HOWEVER IT IS NESTED, A CHOICE GOES THROUGH ITS LEAVES FROM THE LEFT.**

  Which leaves a run asks is an effect of the run, and nesting must not show in
  it: an inner choice that has found something stops the outer one, too.  So
  the law is proved for readers with any effects, where choice is associative,
  and the record of a run is one such effect.

    • `Pattern.runWith_eq_firstOf` — with any readers, a run asks the leaves in
      order, each for the whole source, up to the first that finds something,
    • `Pattern.runWith_record` — what a run tries is what the readers are
      asked,
    • `Pattern.run_of_none`, `Pattern.run_of_first` — where a run ends,
    • `Pattern.ordered_choice` — all of it, for every pattern and source.
-/
import Mathlib.Data.List.Basic
import TabletopDice.Pattern.Basic

namespace TabletopDice

namespace Pattern

/-! ## §1. Readers with effects. -/

section Effects

variable {m : Type → Type} [Monad m]

/-- Do the one, and the other only if the one has found nothing. -/
def orNext (first second : m (Option Match)) : m (Option Match) := do
  match ← first with
  | some found => return some found
  | none => second

/-- Run a pattern with readers that may do more than read. -/
def runWith (reader : Leaf → List Char → m (Option Match)) :
    Pattern → List Char → m (Option Match)
  | .leaf l, source => reader l source
  | .either first second, source =>
      orNext (runWith reader first source) (runWith reader second source)

/-- Ask leaves one after the other, up to the first that finds something. -/
def firstOf (reader : Leaf → List Char → m (Option Match)) (source : List Char) :
    List Leaf → m (Option Match)
  | [] => return none
  | l :: more => orNext (reader l source) (firstOf reader source more)

variable [LawfulMonad m]

theorem none_orNext (second : m (Option Match)) : orNext (pure none) second = second := by
  unfold orNext
  rw [pure_bind]

theorem orNext_none (first : m (Option Match)) : orNext first (pure none) = first := by
  have hsame : orNext first (pure none) = first >>= pure := by
    refine bind_congr fun found => ?_
    cases found with
    | none => rfl
    | some found => rfl
  rw [hsame, bind_pure]

/-- **Choice is associative**, effects and all: an inner choice that has found
something stops the outer one. -/
theorem orNext_assoc (first second third : m (Option Match)) :
    orNext (orNext first second) third = orNext first (orNext second third) := by
  unfold orNext
  rw [bind_assoc]
  -- What the first one finds decides on both sides alike.
  refine bind_congr fun found => ?_
  cases found with
  | none => rfl
  | some found => rw [pure_bind]

variable (reader : Leaf → List Char → m (Option Match))

/-- Leaves in a row are the front ones, and then the back ones. -/
theorem firstOf_append (source : List Char) (front back : List Leaf) :
    firstOf reader source (front ++ back)
      = orNext (firstOf reader source front) (firstOf reader source back) := by
  induction front with
  | nil => exact (none_orNext _).symm
  | cons l front ih =>
      show orNext (reader l source) (firstOf reader source (front ++ back)) = _
      rw [ih, ← orNext_assoc]
      rfl

/-- **A run asks the leaves in order**, each for the same source: nesting has no
effect. -/
theorem runWith_eq_firstOf (p : Pattern) (source : List Char) :
    runWith reader p source = firstOf reader source p.leaves := by
  -- Along the pattern: a choice of two rows of leaves is one row, by associativity.
  induction p with
  | leaf l => exact (orNext_none _).symm
  | either first second ihf ihs =>
      show orNext (runWith reader first source) (runWith reader second source)
        = firstOf reader source (first.leaves ++ second.leaves)
      rw [firstOf_append, ihf, ihs]

end Effects

/-! ## §2. The record of a run. -/

/-- A leaf that was asked, and the text it was asked for. -/
abbrev Request : Type := Leaf × List Char

/-- Read with a leaf, and put the request down. -/
def record (l : Leaf) (source : List Char) : StateM (List Request) (Option Match) :=
  fun asked => (l.read? source, asked ++ [(l, source)])

/-- Something found: the other is not asked. -/
theorem run_orNext_of_some {first second : StateM (List Request) (Option Match)}
    {asked asked' : List Request} {found : Match} (h : first.run asked = (some found, asked')) :
    (orNext first second).run asked = (some found, asked') := by
  unfold orNext
  rw [StateT.run_bind, h]
  rfl

/-- Nothing found: the other is asked, after what was asked before. -/
theorem run_orNext_of_none {first second : StateM (List Request) (Option Match)}
    {asked asked' : List Request} (h : first.run asked = (none, asked')) :
    (orNext first second).run asked = second.run asked' := by
  unfold orNext
  rw [StateT.run_bind, h]
  rfl

/-- The requests for one source. -/
def requests (source : List Char) (ls : List Leaf) : List Request := ls.map fun l => (l, source)

theorem requests_append (source : List Char) (front back : List Leaf) :
    requests source (front ++ back) = requests source front ++ requests source back :=
  List.map_append

/-- The requests tell the leaves. -/
theorem requests_injective (source : List Char) : Function.Injective (requests source) :=
  List.map_injective_iff.2 fun _ _ h => (Prod.mk.inj h).1

/-- A choice whose first pattern finds something is that pattern. -/
theorem run_either_of_some {first second : Pattern} {source : List Char} {m : Match}
    (h : (first.run source).found = some m) :
    (either first second).run source = first.run source := by
  simp only [run, h]

/-- A choice whose first pattern finds nothing has tried all of it for nothing. -/
theorem run_either_of_none {first second : Pattern} {source : List Char}
    (h : (first.run source).found = none) :
    (either first second).run source
      = ⟨(first.run source).tried ++ (second.run source).tried, (second.run source).found⟩ := by
  simp only [run, h]

/-- **What a run tries is what was asked**: the leaves of the trial in order,
each for the whole source. -/
theorem runWith_record (p : Pattern) (source : List Char) :
    ∀ asked, (runWith record p source).run asked
      = ((p.run source).found, asked ++ requests source (p.run source).tried) := by
  -- For every list of requests made before, since the second pattern comes later.
  induction p with
  | leaf l =>
      intro asked
      rfl
  | either first second ihf ihs =>
      intro asked
      have hfirst := ihf asked
      show (orNext (runWith record first source) (runWith record second source)).run asked = _
      -- The run and the record turn on the same thing: what the first pattern found.
      cases hfound : (first.run source).found with
      | some found =>
          rw [hfound] at hfirst
          rw [run_orNext_of_some hfirst, run_either_of_some hfound, hfound]
      | none =>
          rw [hfound] at hfirst
          rw [run_orNext_of_none hfirst, ihs, run_either_of_none hfound, requests_append,
            List.append_assoc]

/-! ## §3. Where a run ends. -/

/-- Leaves that find nothing are all asked. -/
theorem firstOf_record_append {source : List Char} (front back : List Leaf) :
    (∀ l ∈ front, l.read? source = none) → ∀ asked,
      (firstOf record source (front ++ back)).run asked
        = (firstOf record source back).run (asked ++ requests source front) := by
  induction front with
  | nil =>
      intro _ asked
      show _ = (firstOf record source back).run (asked ++ [])
      rw [List.append_nil]
      rfl
  | cons l front ih =>
      intro hnone asked
      -- The first leaf leaves its request and nothing else.
      have hl : (record l source).run asked = (none, asked ++ [(l, source)]) := by
        show (l.read? source, _) = _
        rw [hnone l List.mem_cons_self]
      show (orNext (record l source) (firstOf record source (front ++ back))).run asked = _
      rw [run_orNext_of_none hl, ih fun k hk => hnone k (List.mem_cons_of_mem l hk),
        List.append_assoc]
      rfl

/-- A run is told by what its leaves, one after the other, come to. -/
theorem run_eq_of_record {p : Pattern} {source : List Char} {tried : List Leaf}
    {found : Option Match}
    (h : (firstOf record source p.leaves).run [] = (found, requests source tried)) :
    p.run source = ⟨tried, found⟩ := by
  have hrun := runWith_record p source []
  rw [runWith_eq_firstOf, h, List.nil_append] at hrun
  obtain ⟨hfound, htried⟩ := Prod.mk.inj hrun
  rw [hfound, requests_injective source htried]

/-- **A run that finds nothing tries every leaf.** -/
theorem run_of_none {p : Pattern} {source : List Char}
    (h : ∀ l ∈ p.leaves, l.read? source = none) : p.run source = ⟨p.leaves, none⟩ := by
  apply run_eq_of_record
  have hall := firstOf_record_append p.leaves [] h []
  rw [List.append_nil] at hall
  exact hall

/-- **A run ends at the first leaf that finds something**, and finds that. -/
theorem run_of_first {p : Pattern} {source : List Char} {front back : List Leaf} {l : Leaf}
    {m : Match} (hleaves : p.leaves = front ++ l :: back)
    (hfront : ∀ k ∈ front, k.read? source = none) (hl : l.read? source = some m) :
    p.run source = ⟨front ++ [l], some m⟩ := by
  have hrecord : ∀ asked, (record l source).run asked = (some m, asked ++ [(l, source)]) := by
    intro asked
    show (l.read? source, _) = _
    rw [hl]
  apply run_eq_of_record
  rw [hleaves, firstOf_record_append front (l :: back) hfront, requests_append]
  exact run_orNext_of_some (hrecord _)

/-- Some leaf is the first to find something, or none finds anything. -/
theorem exists_first (ls : List Leaf) (source : List Char) :
    (∃ front l back m, ls = front ++ l :: back ∧ (∀ k ∈ front, k.read? source = none) ∧
        l.read? source = some m) ∨ ∀ l ∈ ls, l.read? source = none := by
  -- Along the leaves; the first one decides, or leaves it to the others.
  induction ls with
  | nil => exact .inr fun l hl => absurd hl List.not_mem_nil
  | cons l ls ih =>
      cases hl : l.read? source with
      | some m => exact .inl ⟨[], l, ls, m, rfl, by simp, hl⟩
      | none =>
          obtain ⟨front, k, back, m, hsplit, hfront, hk⟩ | hnone := ih
          · refine .inl ⟨l :: front, k, back, m, by rw [hsplit]; rfl, ?_, hk⟩
            exact List.forall_mem_cons.2 ⟨hl, hfront⟩
          · exact .inr (List.forall_mem_cons.2 ⟨hl, hnone⟩)

/-! ## §4. The law of choice. -/

/-- **A trial in the order of the leaves**: those that were tried are the first
few; the trial ends with the first one that finds something, and with what that
finds; it goes to the end if there is none; and it never gets past a leaf for
spaces, which always finds some. -/
structure InOrder (leaves : List Leaf) (source : List Char) (trial : Trial) : Prop where
  tried : trial.tried <+: leaves
  first : (∃ l ∈ leaves, l.read? source ≠ none) →
    ∃ front l back m, leaves = front ++ l :: back ∧ (∀ k ∈ front, k.read? source = none) ∧
      l.read? source = some m ∧ trial.tried = front ++ [l] ∧ trial.found = some m
  all : (∀ l ∈ leaves, l.read? source = none) → trial.tried = leaves ∧ trial.found = none
  space : ∀ front back, leaves = front ++ .space :: back → trial.tried <+: front ++ [.space]

/-- Of two front parts of a list, the one whose end the other has not come to is
no shorter. -/
theorem append_prefix_append {ls front front' : List Leaf} {l k : Leaf}
    (h : front ++ [l] <+: ls) (h' : front' ++ [k] <+: ls) (hk : k ∉ front) :
    front ++ [l] <+: front' ++ [k] := by
  -- Two front parts of one list are told apart by their lengths. Were the second
  -- the shorter, its last leaf would lie in `front`.
  by_cases hle : (front ++ [l]).length ≤ (front' ++ [k]).length
  · exact List.prefix_of_prefix_length_le h h' hle
  · have hfront : front <+: ls := (List.prefix_append front [l]).trans h
    have hshort : (front' ++ [k]).length ≤ front.length := by
      rw [List.length_append, List.length_singleton] at hle
      omega
    have hinside := List.prefix_of_prefix_length_le h' hfront hshort
    exact absurd (hinside.subset (List.mem_append_right _ (List.mem_singleton_self k))) hk

/-- A leaf and those before it are a front part. -/
theorem isPrefix_of_split {ls front back : List Leaf} {l : Leaf}
    (h : ls = front ++ l :: back) : front ++ [l] <+: ls :=
  ⟨back, by rw [h, List.append_assoc]; rfl⟩

/-- A leaf for spaces always finds some, though they may be none. -/
theorem read?_space_ne_none (source : List Char) : Leaf.space.read? source ≠ none :=
  Option.some_ne_none _

/-- **Every run is in order.** -/
theorem inOrder_run (p : Pattern) (source : List Char) :
    InOrder p.leaves source (p.run source) := by
  obtain ⟨front, l, back, m, hleaves, hfront, hl⟩ | hnone := exists_first p.leaves source
  · rw [run_of_first hleaves hfront hl]
    exact {
      tried := isPrefix_of_split hleaves
      first := fun _ => ⟨front, l, back, m, hleaves, hfront, hl, rfl, rfl⟩
      all := by
        intro hall
        have hmem : l ∈ p.leaves := hleaves ▸ List.mem_append_right _ List.mem_cons_self
        rw [hall l hmem] at hl
        cases hl
      space := by
        intro front' back' hsplit
        -- A leaf for spaces in front would have found some, so the run ends there at
        -- the latest.
        have hspace : Leaf.space ∉ front := fun hmem =>
          read?_space_ne_none source (hfront .space hmem)
        exact append_prefix_append (isPrefix_of_split hleaves)
          (isPrefix_of_split hsplit) hspace }
  · rw [run_of_none hnone]
    exact {
      tried := List.prefix_refl _
      first := by
        rintro ⟨l, hl, hne⟩
        exact absurd (hnone l hl) hne
      all := fun _ => ⟨rfl, rfl⟩
      space := by
        intro front' back' hsplit
        have hmem : Leaf.space ∈ p.leaves := hsplit ▸ List.mem_append_right _ List.mem_cons_self
        exact absurd (hnone .space hmem) (read?_space_ne_none source) }

/-- **NESTED CHOICE IS ORDERED CHOICE ON THE WHOLE SOURCE.**  A run tries the
leaves of its pattern in order, up to the first that finds something; each of
them is asked once, and for the unchanged source; and two patterns with the same
leaves run alike, however their choices are nested. -/
theorem ordered_choice (p : Pattern) (source : List Char) :
    InOrder p.leaves source (p.run source) ∧
      (runWith record p source).run []
        = ((p.run source).found, requests source (p.run source).tried) ∧
      ∀ q : Pattern, q.leaves = p.leaves → q.run source = p.run source := by
  refine ⟨inOrder_run p source, runWith_record p source [], ?_⟩
  -- The record hangs on the leaves alone, and the record tells the run.
  intro q hleaves
  apply run_eq_of_record
  rw [hleaves, ← runWith_eq_firstOf]
  exact runWith_record p source []

example :
    ((either (either (.leaf .dice) (.leaf .constant)) (.leaf .operator)).run "5+".toList).tried
      = [.dice, .constant] := by decide

end Pattern

end TabletopDice

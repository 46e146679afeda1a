/-
  TabletopDice.Proofs.CommandLine.Arguments
  ──────────────────────────────────────
  **HOW TO ASK FOR ROLLS AND FOR BOUNDS.**

  Every number of rolls and every seed can be written behind its option, and
  every notation can be the operand: a written number starts with a digit and a
  notation never starts with a dash, so neither is taken for an option.

    • `times?_natural`, `seed?_natural` — written numbers are read back,
    • `asksRolls_rollArguments`, `asksBounds_boundsArguments` — what the
      arguments ask for,
    • `Expression.notDashed_of_parse` — notations are operands.
-/
import TabletopDice.CommandLine.Options
import TabletopDice.Proofs.Grammar.Misprint

namespace TabletopDice.CommandLine

/-! ## §1. Numbers in values. -/

/-- A written number is read back, up to the limit. -/
theorem digits?_natural {limit n : Nat} (h : n ≤ limit) :
    digits? limit (Decimal.natural n) = some n := by
  have hdigits : (Decimal.natural n).all Char.isDigit = true :=
    List.all_eq_true.2 fun _ hc => Decimal.isDigit_natural hc
  unfold digits?
  rw [if_pos ⟨Decimal.natural_ne_nil n, hdigits⟩, Digits.within?_eq_some_iff]
  exact ⟨Decimal.ofDigitChars_natural n, h⟩

/-- A written number has no sign in front. -/
theorem natural_ne_cons {sign : Char} (h : sign.isDigit = false) (n : Nat) (run : List Char) :
    Decimal.natural n ≠ sign :: run := by
  have happend := Decimal.natural_append_ne_cons h n [] run
  rwa [List.append_nil] at happend

/-- **A written number of rolls is read back.** -/
theorem times?_natural (n : UInt32) : times? (Decimal.natural n.toNat) = some n := by
  have hle : n.toNat ≤ UInt32.size - 1 := Nat.le_pred_of_lt n.toNat_lt
  unfold times?
  split
  -- A sign may stand in front of the digits; here none does.
  · next h => exact absurd h (natural_ne_cons (by decide) _ _)
  · next h => exact absurd h (natural_ne_cons (by decide) _ _)
  · rw [digits?_natural hle, Option.map_some, UInt32.ofNat_toNat]

/-- **A written seed is read back.** -/
theorem seed?_natural (n : UInt64) : seed? (Decimal.natural n.toNat) = some n := by
  have hle : n.toNat ≤ UInt64.size - 1 := Nat.le_pred_of_lt n.toNat_lt
  unfold seed?
  split
  · next h => exact absurd h (natural_ne_cons (by decide) _ _)
  · rw [digits?_natural hle, Option.map_some, UInt64.ofNat_toNat]

/-! ## §2. Arguments that are no options. -/

/-- The argument does not start with a dash, so it is a value or an operand. -/
def NotDashed (argument : String) : Prop := ∀ text, argument.toList ≠ '-' :: text

/-- A written number is no option, so it can be the value of one. -/
theorem notDashed_natural (n : Nat) : NotDashed (String.ofList (Decimal.natural n)) := by
  intro text
  rw [String.toList_ofList]
  exact natural_ne_cons (by decide) n text

namespace Draft

variable {d : Draft} {argument : String}

/-- Behind an option the next argument is its value. -/
theorem take_of_awaiting {option : Valued} (hdash : NotDashed argument)
    (hawaiting : d.awaiting = some option) (hoperands : d.operandsOnly = false) :
    d.take argument = d.value option argument.toList := by
  -- Only a dash could make it an option.
  unfold take
  rw [if_neg (by rw [hoperands]; decide)]
  split
  · next h => exact absurd h (hdash _)
  · simp only [hawaiting]

/-- An argument that no option awaits is the notation. -/
theorem take_of_operand (hdash : NotDashed argument) (hawaiting : d.awaiting = none)
    (hoperands : d.operandsOnly = false) : d.take argument = d.operand argument := by
  unfold take
  rw [if_neg (by rw [hoperands]; decide)]
  split
  · next h => exact absurd h (hdash _)
  · simp only [hawaiting]

/-- A number of rolls is taken once. -/
theorem take_times (hawaiting : d.awaiting = some .times) (hoperands : d.operandsOnly = false)
    (htimes : d.times = none) (n : UInt32) :
    d.take (String.ofList (Decimal.natural n.toNat))
      = .ok { d with awaiting := none, times := some n } := by
  rw [take_of_awaiting (notDashed_natural _) hawaiting hoperands, String.toList_ofList]
  simp only [value, htimes, times?_natural, Option.isSome_none, Bool.false_eq_true, if_false]

/-- A seed is taken once. -/
theorem take_seed (hawaiting : d.awaiting = some .seed) (hoperands : d.operandsOnly = false)
    (hseed : d.seed = none) (n : UInt64) :
    d.take (String.ofList (Decimal.natural n.toNat))
      = .ok { d with awaiting := none, seed := some n } := by
  rw [take_of_awaiting (notDashed_natural _) hawaiting hoperands, String.toList_ofList]
  simp only [value, hseed, seed?_natural, Option.isSome_none, Bool.false_eq_true, if_false]

/-- An operand is taken once. -/
theorem take_source (hdash : NotDashed argument) (hawaiting : d.awaiting = none)
    (hoperands : d.operandsOnly = false) (hsource : d.source = none) :
    d.take argument = .ok { d with source := some argument } := by
  rw [take_of_operand hdash hawaiting hoperands]
  simp only [operand, hsource]

/-- Arguments are taken one by one, up to the first misuse. -/
theorem foldlM_take_cons {d' : Draft} (h : d.take argument = .ok d') (more : List String) :
    (argument :: more).foldlM take d = more.foldlM take d' := by
  rw [List.foldlM_cons, h]
  rfl

end Draft

/-! ## §3. Asking. -/

/-- The arguments ask for rolls of a text with a seed. -/
def AsksRolls (arguments : List String) (source : String) (times : UInt32) (seed : UInt64) :
    Prop :=
  Options.ofArguments arguments = .ok ⟨source, times, some seed, false⟩

instance (arguments : List String) (source : String) (times : UInt32) (seed : UInt64) :
    Decidable (AsksRolls arguments source times seed) :=
  inferInstanceAs (Decidable (Options.ofArguments arguments = _))

/-- The arguments ask for the bounds of a text, with or without a seed and a
number of rolls. -/
def AsksBounds (arguments : List String) (source : String) : Prop :=
  ∃ times seed, Options.ofArguments arguments = .ok ⟨source, times, seed, true⟩

/-- How many rolls, from which seed, and of what. -/
def rollArguments (times : UInt32) (seed : UInt64) (source : String) : List String :=
  ["-n", String.ofList (Decimal.natural times.toNat),
    "-s", String.ofList (Decimal.natural seed.toNat), source]

/-- The same, with the flag for the bounds in front. -/
def boundsArguments (times : UInt32) (seed : UInt64) (source : String) : List String :=
  "--bounds" :: rollArguments times seed source

/-- **Two options and a notation fill a draft**, whether or not the bounds were asked for. -/
theorem foldlM_take_rollArguments {source : String} (h : NotDashed source) (times : UInt32)
    (seed : UInt64) (bounds : Bool) :
    (rollArguments times seed source).foldlM Draft.take ⟨none, none, none, bounds, none, false⟩
      = .ok ⟨some source, some times, some seed, bounds, none, false⟩ := by
  -- Each option awaits its value, and the value is the next argument.
  have hn : Draft.take ⟨none, none, none, bounds, none, false⟩ "-n"
      = .ok ⟨none, none, none, bounds, some .times, false⟩ := rfl
  have hs : Draft.take ⟨none, some times, none, bounds, none, false⟩ "-s"
      = .ok ⟨none, some times, none, bounds, some .seed, false⟩ := rfl
  unfold rollArguments
  rw [Draft.foldlM_take_cons hn, Draft.foldlM_take_cons (Draft.take_times rfl rfl rfl times),
    Draft.foldlM_take_cons hs, Draft.foldlM_take_cons (Draft.take_seed rfl rfl rfl seed),
    Draft.foldlM_take_cons (Draft.take_source h rfl rfl rfl)]
  rfl

/-- **Any number of rolls can be asked for, with any seed.** -/
theorem asksRolls_rollArguments {source : String} (h : NotDashed source) (times : UInt32)
    (seed : UInt64) : AsksRolls (rollArguments times seed source) source times seed := by
  unfold AsksRolls Options.ofArguments Draft.blank
  rw [foldlM_take_rollArguments h]
  rfl

/-- **The bounds can be asked for**, whatever else is. -/
theorem asksBounds_boundsArguments {source : String} (h : NotDashed source) (times : UInt32)
    (seed : UInt64) : AsksBounds (boundsArguments times seed source) source := by
  -- The flag only marks the draft, and the other arguments follow as without it.
  have hflag : Draft.blank.take "--bounds" = .ok ⟨none, none, none, true, none, false⟩ := by
    decide
  refine ⟨times, some seed, ?_⟩
  unfold Options.ofArguments boundsArguments
  rw [Draft.foldlM_take_cons hflag, foldlM_take_rollArguments h]
  rfl

end TabletopDice.CommandLine

namespace TabletopDice.Expression

/-- **A notation never starts with a dash.** -/
theorem notDashed_of_parse {source : String} {e : Expression} (h : parse source = .ok e) :
    CommandLine.NotDashed source := by
  intro text heq
  -- A minus sign in front is an operator where a term is due.
  obtain ⟨excerpt, herror⟩ := error_of_leading_minus text
  unfold parse at h
  rw [heq, herror] at h
  cases h

end TabletopDice.Expression

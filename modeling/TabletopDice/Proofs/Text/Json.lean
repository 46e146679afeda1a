/-
  TabletopDice.Proofs.Text.Json
  ──────────────────────────────────────
  **THE JSON TEXT LOSES NOTHING IT IS MEANT TO KEEP.**

  Every value of the compact form is delimited: a number by the first
  character that is no digit, all else by a bracket or a quote of its own.  So
  objects and arrays are as good as their parts, and the text of an expression
  tells its terms, that of a roll its numbers.

    • `Json.delimited_record`, `Json.delimited_triple`, `Json.delimited_array`
      — objects of one and of three fields, and arrays,
    • `Term.delimited_json`, `Expression.delimited_json` — what is written of an
      expression,
    • `Json.delimited_tally` — what is written of a roll,
    • `Json.text_eq_iff` — both kinds of text.
-/
import TabletopDice.Json
import TabletopDice.Proofs.Text.Delimited

namespace TabletopDice

/-! ## §1. Objects and arrays. -/

namespace Json

variable {α β γ : Type} {q : Char → Bool} {write : α → List Char} {write' : β → List Char}
  {write'' : γ → List Char}

/-- A field is told by its value: the key stands in front of it. -/
theorem delimited_field (h : Delimited Char.isDigit write) (key : String) :
    Delimited Char.isDigit fun a => field key (write a) := by
  have hfield : (fun a => field key (write a)) = fun a => (name key ++ [':']) ++ write a := by
    funext a
    simp [field]
  rw [hfield]
  exact h.after _

/-- What stands in braces, whatever is behind them. -/
theorem delimited_braces (h : Delimited Char.isDigit write) :
    Delimited q fun a => '\x7b' :: (write a ++ ['\x7d']) :=
  (h.closed (by decide)).after ['\x7b']

/-- **An object of one field tells the value of it.** -/
theorem delimited_record (h : Delimited Char.isDigit write) (key : String) :
    Delimited q fun a => object [field key (write a)] := by
  have hobject : (fun a => object [field key (write a)])
      = fun a => '\x7b' :: (field key (write a) ++ ['\x7d']) := by
    funext a
    simp [object]
  rw [hobject]
  exact delimited_braces (delimited_field h key)

/-- **An object of three fields tells the values of all of them.** -/
theorem delimited_triple (h : Delimited Char.isDigit write) (h' : Delimited Char.isDigit write')
    (h'' : Delimited Char.isDigit write'') (key key' key'' : String) :
    Delimited q fun abc : α × β × γ => object
      [field key (write abc.1), field key' (write' abc.2.1), field key'' (write'' abc.2.2)] := by
  have hobject : (fun abc : α × β × γ => object
      [field key (write abc.1), field key' (write' abc.2.1), field key'' (write'' abc.2.2)])
      = fun abc => '\x7b' :: ((field key (write abc.1) ++
          ',' :: (field key' (write' abc.2.1) ++ ',' :: field key'' (write'' abc.2.2)))
        ++ ['\x7d']) := by
    funext abc
    simp [object, List.intercalate_cons_cons]
  have hcomma : Char.isDigit ',' = false := by decide
  -- A comma ends a number, and every other value ends by itself.
  have hlater := (delimited_field h' key').pair (delimited_field h'' key'') hcomma
  rw [hobject]
  exact delimited_braces ((delimited_field h key).pair hlater hcomma)

/-- The first value of an array stands without a comma. -/
theorem intercalate_cons (a : α) (as : List α) :
    [','].intercalate ((a :: as).map write) = write a ++ as.flatMap fun b => ',' :: write b := by
  induction as generalizing a with
  | nil => simp
  | cons b as ih =>
      rw [List.map_cons, List.map_cons, List.intercalate_cons_cons, ← List.map_cons, ih]
      simp

/-- **An array tells its values**, how many there are and which, when none of
them is taken for the closing bracket. -/
theorem delimited_array (h : Delimited Char.isDigit write)
    (hopen : ∀ a x y, write a ++ x ≠ ']' :: y) :
    Delimited q fun as : List α => array (as.map write) := by
  have hcomma : Char.isDigit ',' = false := by decide
  have hclear : ∀ z, Clear (fun c => c.isDigit || c == ',') (']' :: z) :=
    fun z => Clear.cons_iff.2 (by decide)
  -- An array is told from the empty one by its first value, which is no bracket.
  intro as bs x y _ _ heq
  cases as with
  | nil =>
      cases bs with
      | nil => exact ⟨rfl, by simpa [array] using heq⟩
      | cons b bs =>
          simp only [array, intercalate_cons, List.map_nil, List.intercalate_nil, List.nil_append,
            List.cons_append, List.append_assoc, List.cons.injEq, true_and] at heq
          exact absurd heq.symm (hopen b _ x)
  | cons a as =>
      cases bs with
      | nil =>
          simp only [array, intercalate_cons, List.map_nil, List.intercalate_nil, List.nil_append,
            List.cons_append, List.append_assoc, List.cons.injEq, true_and] at heq
          exact absurd heq (hopen a _ y)
      | cons b bs =>
          simp only [array, intercalate_cons, List.nil_append, List.cons_append,
            List.append_assoc, List.cons.injEq, true_and] at heq
          -- After the first value the others follow, each behind its comma.
          obtain ⟨hfirst, hrest⟩ := h (Delimited.clear_flatMap hcomma as (hclear x))
            (Delimited.clear_flatMap hcomma bs (hclear y)) heq
          obtain ⟨hlater, hend⟩ := h.flatMap hcomma (hclear x) (hclear y) hrest
          exact ⟨by rw [hfirst, hlater], (List.cons.inj hend).2⟩

/-! ## §2. Numbers. -/

theorem delimited_unsigned : Delimited Char.isDigit unsigned :=
  Decimal.delimited_natural.comp fun _ _ => UInt32.toNat_inj.1

theorem delimited_signed : Delimited Char.isDigit signed :=
  Decimal.delimited_signed.comp fun _ _ => Int64.toInt_inj.1

theorem signed_append_ne (i : Int64) (x y : List Char) : signed i ++ x ≠ ']' :: y := by
  unfold signed Decimal.signed
  split
  · intro heq
    exact absurd (List.cons.inj heq).1 (by decide)
  · exact Decimal.natural_append_ne_cons (by decide) _ x y

end Json

/-! ## §3. Terms and expressions. -/

/-- The two names of signs differ in their first letter. -/
theorem Sign.delimited_json : Delimited Char.isDigit Sign.json := by
  intro s s' x y _ _ heq
  cases s with
  | positive =>
      cases s' with
      | positive => exact ⟨rfl, List.append_cancel_left heq⟩
      | negative => exact absurd heq (by simp [Sign.json, Json.name])
  | negative =>
      cases s' with
      | positive => exact absurd heq (by simp [Sign.json, Json.name])
      | negative => exact ⟨rfl, List.append_cancel_left heq⟩

/-- **The text of a group tells its count, its sides and its sign.** -/
theorem Dice.delimited_json : Delimited Char.isDigit Dice.json := by
  have hparts : Function.Injective fun d : Dice => (d.count, d.sides, d.sign) := by
    rintro ⟨count, sides, sign⟩ ⟨count', sides', sign'⟩ h
    simpa using h
  have htriple := Json.delimited_triple (q := Char.isDigit) Json.delimited_unsigned
    Json.delimited_unsigned Sign.delimited_json "count" "sides" "sign"
  have hdice := htriple.comp hparts
  exact hdice

/-- **The text of a constant tells its value.** -/
theorem Constant.delimited_json : Delimited Char.isDigit Constant.json := by
  have hvalue : Function.Injective Constant.value := by
    rintro ⟨value⟩ ⟨value'⟩ h
    exact congrArg Constant.mk h
  exact (Json.delimited_record Json.delimited_signed "value").comp hvalue

/-- The two names of kinds differ in their first letter, too. -/
theorem Term.delimited_json : Delimited Char.isDigit Term.json := by
  have hdice := Json.delimited_record (q := Char.isDigit) Dice.delimited_json "Dice"
  have hconstant := Json.delimited_record (q := Char.isDigit) Constant.delimited_json "Constant"
  intro t u x y hx hy heq
  cases t with
  | dice d =>
      cases u with
      | dice e =>
          obtain ⟨hde, hrest⟩ := hdice hx hy heq
          exact ⟨congrArg dice hde, hrest⟩
      | constant c =>
          exact absurd heq (by simp [Term.json, Json.object, Json.field, Json.name])
  | constant c =>
      cases u with
      | dice e => exact absurd heq (by simp [Term.json, Json.object, Json.field, Json.name])
      | constant c' =>
          obtain ⟨hcc, hrest⟩ := hconstant hx hy heq
          exact ⟨congrArg constant hcc, hrest⟩

/-- **The text of an expression tells its terms.** -/
theorem Expression.delimited_json : Delimited Char.isDigit Expression.json := by
  -- Every term starts with a brace, so no term ends the array.
  have hopen : ∀ (t : Term) (x y : List Char), t.json ++ x ≠ ']' :: y := by
    intro t x y
    cases t <;> simp [Term.json, Json.object]
  have hterms : Function.Injective Expression.terms := by
    rintro ⟨ts⟩ ⟨us⟩ h
    exact congrArg Expression.mk h
  exact (Json.delimited_record (Json.delimited_array Term.delimited_json hopen)
    "terms").comp hterms

/-! ## §4. Rolls. -/

namespace Json

/-- **The numbers of a roll are told by their text**: its total, the subtotals
and the faces, in lists of any length. -/
theorem delimited_tally :
    Delimited Char.isDigit fun tally : Int64 × List Int64 × List (List Int64) =>
      object [field "total" (signed tally.1),
        field "subtotals" (array (tally.2.1.map signed)),
        field "rolls" (array (tally.2.2.map fun faces => array (faces.map signed)))] := by
  have hlist : Delimited Char.isDigit fun values : List Int64 => array (values.map signed) :=
    delimited_array delimited_signed signed_append_ne
  -- Faces are an array of their own, which starts with a bracket of the other kind.
  have hopen : ∀ (faces : List Int64) (x y : List Char),
      array (faces.map signed) ++ x ≠ ']' :: y := by
    intro faces x y
    simp [array]
  exact delimited_triple delimited_signed hlist (delimited_array hlist hopen) _ _ _

/-- **THE JSON TEXT LOSES NOTHING.**  Any two expressions have the same text
only if they are the same, whatever their terms; and any two rolls have the
same text exactly if their totals, subtotals and faces are the same, from
whatever terms they were rolled. -/
theorem text_eq_iff :
    (∀ e e' : Expression, e.json = e'.json ↔ e = e') ∧
      ∀ r r' : Roll, r.json = r'.json ↔
        r.total = r'.total ∧ r.subtotals = r'.subtotals ∧ r.faces = r'.faces := by
  constructor
  · intro e e'
    exact Expression.delimited_json.injective.eq_iff
  · intro r r'
    -- A roll writes its total and two lists, so these are what its text tells.
    have htally := delimited_tally.injective.eq_iff
      (a := (r.total, r.subtotals, r.faces)) (b := (r'.total, r'.subtotals, r'.faces))
    rw [Prod.mk.injEq, Prod.mk.injEq] at htally
    exact htally

end Json

end TabletopDice

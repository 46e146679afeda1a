/-
  TabletopDice.Json
  ──────────────────────────────────────
  **EXPRESSIONS AND ROLLS AS JSON, in the compact form: no spaces, the fields
  in a fixed order.**

  A term is an object with one field, named for its kind.  A roll is written
  as its total, its subtotals and its faces; the terms that it was rolled from
  are left out.
-/
import TabletopDice.Roll.Basic
import TabletopDice.Text.Numeral

namespace TabletopDice

namespace Json

/-! ## §1. The compact form. -/

/-- A name in quotes. -/
def name (text : String) : List Char := '"' :: (text.toList ++ ['"'])

/-- A field of an object. -/
def field (key : String) (value : List Char) : List Char := name key ++ ':' :: value

/-- An object of fields that are written already. -/
def object (fields : List (List Char)) : List Char :=
  '\x7b' :: ([','].intercalate fields ++ ['\x7d'])

/-- An array of values that are written already. -/
def array (values : List (List Char)) : List Char :=
  '[' :: ([','].intercalate values ++ [']'])

/-- An unsigned number. -/
def unsigned (n : UInt32) : List Char := Decimal.natural n.toNat

/-- A signed number. -/
def signed (i : Int64) : List Char := Decimal.signed i.toInt

end Json

/-! ## §2. Terms and expressions. -/

/-- The name of a sign. -/
def Sign.json : Sign → List Char
  | .positive => Json.name "Positive"
  | .negative => Json.name "Negative"

/-- A group of dice by its count, sides and sign. -/
def Dice.json (d : Dice) : List Char :=
  Json.object [Json.field "count" (Json.unsigned d.count),
    Json.field "sides" (Json.unsigned d.sides), Json.field "sign" d.sign.json]

/-- A constant by its value. -/
def Constant.json (c : Constant) : List Char :=
  Json.object [Json.field "value" (Json.signed c.value)]

/-- A term under the name of its kind. -/
def Term.json : Term → List Char
  | .dice d => Json.object [Json.field "Dice" d.json]
  | .constant c => Json.object [Json.field "Constant" c.json]

/-- An expression as the array of its terms. -/
def Expression.json (e : Expression) : List Char :=
  Json.object [Json.field "terms" (Json.array (e.terms.map Term.json))]

/-! ## §3. Rolls. -/

/-- A roll as its total, its subtotals and its faces. -/
def Roll.json (r : Roll) : List Char :=
  Json.object [Json.field "total" (Json.signed r.total),
    Json.field "subtotals" (Json.array (r.subtotals.map Json.signed)),
    Json.field "rolls" (Json.array (r.faces.map fun faces => Json.array (faces.map Json.signed)))]

example :
    Expression.json ⟨[.dice (Dice.clamped 3 6), .constant ⟨-5⟩]⟩
      = ("\x7b\"terms\":[\x7b\"Dice\":\x7b\"count\":3,\"sides\":6,\"sign\":\"Positive\"\x7d\x7d," ++
          "\x7b\"Constant\":\x7b\"value\":-5\x7d\x7d]\x7d").toList := by decide

end TabletopDice

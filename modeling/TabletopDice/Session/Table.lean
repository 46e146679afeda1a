/-
  TabletopDice.Session.Table
  ──────────────────────────────────────
  **NAMED VALUES: putting a value under a name replaces what was there.**

    • `get?_put_self` — a value can be found under the name it was put,
    • `get?_put_of_ne` — every other name keeps what it had.
-/

namespace TabletopDice

/-- Values under names, the latest first, each name at most once. -/
structure Table (α : Type) where
  entries : List (String × α)

namespace Table

variable {α : Type}

/-- A table without entries. -/
def empty : Table α := ⟨[]⟩

/-- The value under a name. -/
def get? (t : Table α) (name : String) : Option α :=
  (t.entries.find? (fun entry => entry.1 = name)).map Prod.snd

/-- Put a value under a name. -/
def put (t : Table α) (name : String) (value : α) : Table α :=
  ⟨(name, value) :: t.entries.filter (fun entry => entry.1 ≠ name)⟩

@[simp] theorem get?_empty (name : String) : (empty : Table α).get? name = none := rfl

/-- **What was put is found.** -/
@[simp] theorem get?_put_self (t : Table α) (name : String) (value : α) :
    (t.put name value).get? name = some value := by
  simp [get?, put]

/-- **Putting touches no other name.** -/
theorem get?_put_of_ne (t : Table α) {name other : String} (value : α) (h : other ≠ name) :
    (t.put name value).get? other = t.get? other := by
  have hfind : ∀ entries : List (String × α),
      (entries.filter (fun entry => entry.1 ≠ name)).find? (fun entry => entry.1 = other)
        = entries.find? (fun entry => entry.1 = other) := by
    intro entries
    induction entries with
    | nil => rfl
    | cons entry entries ih =>
        by_cases hn : entry.1 = name
        · have ho : entry.1 ≠ other := fun he => h (he.symm.trans hn)
          rw [List.filter_cons_of_neg (by simp [hn]), ih,
            List.find?_cons_of_neg (by simp [ho])]
        · rw [List.filter_cons_of_pos (by simp [hn])]
          by_cases ho : entry.1 = other
          · rw [List.find?_cons_of_pos (by simp [ho]), List.find?_cons_of_pos (by simp [ho])]
          · rw [List.find?_cons_of_neg (by simp [ho]), List.find?_cons_of_neg (by simp [ho]), ih]
  simp only [get?, put]
  rw [List.find?_cons_of_neg (by simp [Ne.symm h]), hfind]

end Table

end TabletopDice

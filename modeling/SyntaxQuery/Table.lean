namespace SyntaxQuery

variable {α : Type}

/-- Entries under names, in the order in which the names first came. -/
abbrev Table (α : Type) := List (String × α)

namespace Table

def find? : Table α → String → Option α
  | [], _ => none
  | (key, value) :: rest, name => if key = name then some value else find? rest name

/-- Puts an entry in the place of the one under its name, or behind all others. -/
def put (name : String) (entry : α) : Table α → Table α
  | [] => [(name, entry)]
  | (key, value) :: rest =>
    if key = name then (key, entry) :: rest else (key, value) :: put name entry rest

def drop (name : String) (table : Table α) : Table α :=
  table.filter fun entry => entry.1 ≠ name

def has (table : Table α) (name : String) : Bool :=
  (table.find? name).isSome

theorem find?_put_self (name : String) (entry : α) (table : Table α) :
    (table.put name entry).find? name = some entry := by
  induction table with
  | nil => simp [put, find?]
  | cons head rest ih =>
    by_cases h : head.1 = name
    · simp [put, find?, h]
    · simp [put, find?, h, ih]

theorem find?_put_of_ne {name other : String} (h : name ≠ other) (entry : α) (table : Table α) :
    (table.put name entry).find? other = table.find? other := by
  induction table with
  | nil => simp [put, find?, h]
  | cons head rest ih =>
    by_cases hn : head.1 = name
    · simp [put, find?, hn, h]
    · by_cases ho : head.1 = other
      · simp [put, find?, ho, Ne.symm h]
      · simp [put, find?, hn, ho, ih]

theorem find?_drop_self (name : String) (table : Table α) :
    (table.drop name).find? name = none := by
  induction table with
  | nil => rfl
  | cons head rest ih =>
    by_cases h : head.1 = name
    · simpa [drop, List.filter_cons, h] using ih
    · simpa [drop, List.filter_cons, h, find?] using ih

theorem find?_drop_of_ne {name other : String} (h : name ≠ other) (table : Table α) :
    (table.drop name).find? other = table.find? other := by
  induction table with
  | nil => rfl
  | cons head rest ih =>
    by_cases hn : head.1 = name
    · have ho : head.1 ≠ other := fun e => h (hn.symm.trans e)
      simpa [drop, List.filter_cons, hn, find?, h] using ih
    · by_cases ho : head.1 = other
      · simp [drop, find?, ho, Ne.symm h]
      · simpa [drop, List.filter_cons, hn, find?, ho] using ih

end Table

end SyntaxQuery

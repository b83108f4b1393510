import NoiContest.Lib.JsonText

/- Python values of documents. The values of other classes, such as floats and dates, are told
   apart by a number. -/
inductive PyValue where
  | null
  | bool : Bool → PyValue
  | int : Int → PyValue
  | text : String → PyValue
  | list : List PyValue → PyValue
  | mapping : List (String × PyValue) → PyValue
  | other : Nat → PyValue

namespace PyValue

/-- `mapping.get(key)` -/
def get (fields : List (String × PyValue)) (key : String) : PyValue :=
  (fields.lookup key).getD .null

/- What int() does: a TypeError or ValueError is refused, and an infinite float overflows. -/
inductive Conversion where
  | number (n : Int)
  | refused
  | overflow
  deriving DecidableEq, Repr

/- The conversions of texts and of values of other classes. -/
structure Conversions where
  intText : String → Option Int
  intOther : Nat → Conversion
  str : PyValue → String
  truthyOther : Nat → Bool

variable (c : Conversions)

/-- `int(value)` -/
def toInt : PyValue → Conversion
  | .bool v => .number (if v then 1 else 0)
  | .int n => .number n
  | .text s => match c.intText s with
    | some n => .number n
    | none => .refused
  | .other n => c.intOther n
  | _ => .refused

/-- `str(value)` -/
def toStr : PyValue → String
  | .text s => s
  | .int n => toString n
  | value => c.str value

/-- `bool(value)` -/
def truthy : PyValue → Bool
  | .null => false
  | .bool v => v
  | .int n => n != 0
  | .text s => s != ""
  | .list items => !items.isEmpty
  | .mapping fields => !fields.isEmpty
  | .other n => c.truthyOther n

mutual

/- The value that json.loads builds. -/
def ofJson : JsonText.Json → PyValue
  | .null => .null
  | .bool b => .bool b
  | .int n => .int n
  | .str s => .text s
  | .arr items => .list (ofItems items)
  | .obj fields => .mapping (ofFields fields)

def ofItems : List JsonText.Json → List PyValue
  | [] => []
  | item :: rest => ofJson item :: ofItems rest

def ofFields : List (String × JsonText.Json) → List (String × PyValue)
  | [] => []
  | (name, value) :: rest => (name, ofJson value) :: ofFields rest

end

theorem ofFields_map (fields : List (String × JsonText.Json)) :
    ofFields fields = fields.map fun field => (field.1, ofJson field.2) := by
  induction fields with
  | nil => rfl
  | cons field rest ih => rw [ofFields, ih, List.map_cons]

theorem get_mem {fields : List (String × PyValue)} (once : (fields.map Prod.fst).Nodup)
    {key : String} {value : PyValue} (mem : (key, value) ∈ fields) : get fields key = value := by
  induction fields with
  | nil => cases mem
  | cons field rest ih =>
    rw [List.map_cons, List.nodup_cons] at once
    rcases List.mem_cons.mp mem with rfl | later
    · simp [get]
    · have other : (key == field.1) = false := by
        rw [beq_eq_false_iff_ne]
        rintro rfl
        exact once.1 (List.mem_map.mpr ⟨_, later, rfl⟩)
      rw [get, List.lookup_cons, other]
      exact ih once.2 later

end PyValue

import RelationalAlgebra.Json.Value

/-!
# Forms of JSON values

The general forms in which structured values are written: a choice between variants is the name
of the variant, or an object whose only key is that name; a structure is an object with known
keys, or the list of the values of these keys.

Reading a form may open a limited number of arrays and objects inside each other. Every reader
takes the number that may still be opened, and reads what is inside with one less. Members whose
keys are not known do not count.
-/

namespace RelationalAlgebra.Json

/-- How many arrays and objects may be open at once. -/
def depthLimit : Nat := 127

/-- The text that a value is. -/
def text? : Json → Option String
  | .string s => s
  | _ => none

/-- The integer that a value is, if it lies within bounds. -/
def intWithin? (least greatest : Int) : Json → Option Int
  | .number n => n.toInt?.bind fun i => if least ≤ i ∧ i ≤ greatest then some i else none
  | _ => none

/-- The name of the chosen variant, and what comes with it. -/
def variant? : (depth : Nat) → Json → Option (String × Option Json)
  | _, .string (some name) => some (name, none)
  | _ + 1, .object [(some name, content)] => some (name, some content)
  | _, _ => none

/-- The chosen variant, of variants that come with nothing. -/
def choice? {α : Type} (ofName? : String → Option α) (depth : Nat) (j : Json) : Option α :=
  match variant? depth j with
  | some (name, none) => ofName? name
  | some (name, some .null) => ofName? name
  | _ => none

/-- The items of an array. -/
def items? : (depth : Nat) → Json → Option (List Json)
  | _ + 1, .array items => some items
  | _, _ => none

/-- The values of the members with a key. -/
def valuesOf (key : String) (members : List (Option String × Json)) : List Json :=
  (members.filter fun member => member.1 == some key).map Prod.snd

/-- The value of the only member with a key, or nothing if there is none. A key that stands twice
is an error. -/
def member? (members : List (Option String × Json)) (key : String) : Option (Option Json) :=
  match valuesOf key members with
  | [] => some none
  | [value] => some (some value)
  | _ => none

/-- The values of some keys, of which any may be missing; in a list, any at its end. -/
def someFields? (keys : List String) : (depth : Nat) → Json → Option (List (Option Json))
  | _ + 1, .object members =>
    if members.any fun member => member.1.isNone then none
    else keys.mapM (member? members)
  | _ + 1, .array items =>
    if items.length ≤ keys.length then
      some (items.map some ++ List.replicate (keys.length - items.length) none)
    else none
  | _, _ => none

/-- The values of some keys, none of which may be missing. -/
def fields? (keys : List String) (depth : Nat) (j : Json) : Option (List Json) :=
  (someFields? keys depth j).bind fun values => values.mapM id

end RelationalAlgebra.Json

import RelationalAlgebra.Json.Token

/-!
# JSON values

A JSON value keeps everything that its text says apart from blanks: numerals as they are written,
and the members of an object in order, with repetitions.

A text is read token by token. What is still open is kept on a stack of frames, so a value of any
depth is read in one pass over the tokens.
-/

namespace RelationalAlgebra

/-- A JSON value. A string that is no text, and a key that is none, is `none`. -/
inductive Json where
  | null
  | bool (value : Bool)
  | number (value : Decimal.Numeral)
  | string (value : Option String)
  | array (items : List Json)
  | object (members : List (Option String × Json))

namespace Json

/-- The JSON value of a text. -/
def text (s : String) : Json :=
  .string (some s)

/-- The JSON value of an integer. -/
def int (n : Int) : Json :=
  .number (Decimal.Numeral.ofInt n)

/-- The JSON object with the given members. -/
def record (members : List (String × Json)) : Json :=
  .object (members.map fun member => (some member.1, member.2))

/-! ## Writing -/

mutual

/-- The tokens of a value. -/
def tokens : Json → List Token
  | .null => [.null]
  | .bool b => [.bool b]
  | .number n => [.number n]
  | .string s => [.string s]
  | .array [] => [.openArray, .closeArray]
  | .array (item :: items) => .openArray :: (tokens item ++ itemTokens items)
  | .object [] => [.openObject, .closeObject]
  | .object ((key, value) :: members) =>
    .openObject :: .string key :: .colon :: (tokens value ++ memberTokens members)

/-- The tokens of the further items of an array, and of its end. -/
def itemTokens : List Json → List Token
  | [] => [.closeArray]
  | item :: items => .comma :: (tokens item ++ itemTokens items)

/-- The tokens of the further members of an object, and of its end. -/
def memberTokens : List (Option String × Json) → List Token
  | [] => [.closeObject]
  | (key, value) :: members =>
    .comma :: .string key :: .colon :: (tokens value ++ memberTokens members)

end

/-- The text of a value, without blanks. -/
def render (j : Json) : String :=
  String.ofList (j.tokens.flatMap Token.text)

/-! ## Reading -/

/-- An array or object of which some items or members have been read, the last one first. An
object has also the key of the member that is being read. -/
inductive Frame where
  | array (items : List Json)
  | object (members : List (Option String × Json)) (key : Option String)

/-- Where reading stands among the tokens: what has to come next, and what is still open. -/
inductive State where
  | value (frames : List Frame)
  | firstItem (frames : List Frame)
  | firstKey (frames : List Frame)
  | key (members : List (Option String × Json)) (frames : List Frame)
  | colon (members : List (Option String × Json)) (key : Option String)
      (frames : List Frame)
  | done (result : Json) (frames : List Frame)

/-- Reads a token where a value has to start. -/
def start (frames : List Frame) : Token → Option State
  | .null => some (.done .null frames)
  | .bool b => some (.done (.bool b) frames)
  | .number n => some (.done (.number n) frames)
  | .string s => some (.done (.string s) frames)
  | .openArray => some (.firstItem frames)
  | .openObject => some (.firstKey frames)
  | _ => none

/-- Reads one token. -/
def step : State → Token → Option State
  | .value frames, token => start frames token
  | .firstItem frames, .closeArray => some (.done (.array []) frames)
  | .firstItem frames, token => start (.array [] :: frames) token
  | .firstKey frames, .closeObject => some (.done (.object []) frames)
  | .firstKey frames, .string key => some (.colon [] key frames)
  | .key members frames, .string key => some (.colon members key frames)
  | .colon members key frames, .colon => some (.value (.object members key :: frames))
  | .done item (.array items :: frames), .comma =>
    some (.value (.array (item :: items) :: frames))
  | .done item (.array items :: frames), .closeArray =>
    some (.done (.array (item :: items).reverse) frames)
  | .done value (.object members key :: frames), .comma =>
    some (.key ((key, value) :: members) frames)
  | .done value (.object members key :: frames), .closeObject =>
    some (.done (.object ((key, value) :: members).reverse) frames)
  | _, _ => none

/-- The value that some tokens are. -/
def ofTokens? (ts : List Token) : Option Json :=
  match ts.foldlM step (.value []) with
  | some (.done result []) => some result
  | _ => none

/-- The value of a text. -/
def parse? (s : String) : Option Json :=
  (tokens? s.toList).bind ofTokens?

end Json

end RelationalAlgebra

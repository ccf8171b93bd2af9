/-!
# JSON documents

A document as a value.  Numbers without fraction and exponent are kept as integers; any other number
keeps its text, since no record has a field for it.
-/

namespace CardHolds

/-- A JSON document. -/
inductive Json where
  | null
  | bool (value : Bool)
  | integer (value : Int)
  /-- A number with a fraction or an exponent. -/
  | decimal (text : String)
  | string (value : String)
  | array (items : List Json)
  | object (fields : List (String × Json))
deriving Inhabited

namespace Json

/-- The fields of a document that are of interest, by name. -/
abbrev Fields := String → Option Json

/-- Reads a document as a record with the given fields.  A record may also be written as the array
of its fields in their order, none left out. -/
def record? (names : List String) : Json → Option Fields
  | object fields => some fun name => fields.lookup name
  | array items =>
    if items.length = names.length then some fun name => (names.zip items).lookup name else none
  | _ => none

/-- Reads a document as a word of an enumeration.  A word may also be written as the name of the only
field of an object, with nothing in it. -/
def word? : Json → Option String
  | string word => some word
  | object [(word, null)] => some word
  | _ => none

end Json

end CardHolds

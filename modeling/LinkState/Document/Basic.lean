/-!
# Documents

Configurations, snapshots and log fields are documents: trees of the values that JSON can write. The
fields of an object are in ascending order of their names, each name once. A number that is no
64-bit integer is kept as it was written.
-/

namespace LinkState

/-- A value that JSON can write. -/
inductive Document where
  | null
  | bool (value : Bool)
  | integer (value : Int)
  | fraction (literal : String)
  | text (value : String)
  | list (items : List Document)
  | object (fields : List (String × Document))
deriving Inhabited

namespace Document

/-- Puts a field at its place among fields in ascending order, replacing one of the same name. -/
def place (name : String) (value : Document) :
    List (String × Document) → List (String × Document)
  | [] => [(name, value)]
  | field :: rest =>
    if name < field.1 then (name, value) :: field :: rest
    else if field.1 < name then field :: place name value rest
    else (name, value) :: rest

/-- The object with the given fields; of several fields of one name the last one stays. -/
def ofFields (fields : List (String × Document)) : Document :=
  object (fields.foldl (fun placed field => place field.1 field.2 placed) [])

/-- The value of a field, if the document is an object that has it. -/
def field? (document : Document) (name : String) : Option Document :=
  match document with
  | object fields => fields.lookup name
  | _ => none

/-- The document with some fields of an object replaced or added. -/
def withFields (document : Document) (changes : List (String × Document)) : Document :=
  match document with
  | object fields =>
    object (changes.foldl (fun placed field => place field.1 field.2 placed) fields)
  | document => document

/-- The text of a natural number, for numbers that are to be shown as text. -/
def ofNatText (n : Nat) : Document := text (toString n)

end Document

end LinkState

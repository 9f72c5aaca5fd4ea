import LinkState.Document.Basic
import LinkState.SystemId

/-!
# Reading values from documents

A reader takes a document apart or says why it cannot. Records are described by `Fields`, which
lists the names of the fields in order and puts the record together from their values. A record may
be written as an object, or as the list of its fields in order.

Of several faults in an object the one at the first faulty field, in the order of the object, is
reported, and an absent field only if there is no other fault. In a list the first faulty position
is reported.
-/

namespace LinkState

/-- Why a document cannot be read. -/
inductive Misread where
  /-- A field without a default is absent. -/
  | missingField
  /-- A field that the record does not have. -/
  | unknownField
  /-- A value of another kind is due. -/
  | invalidType
  /-- A number out of range, or an object that does not name one variant. -/
  | invalidValue
  /-- A list with too few or too many items. -/
  | invalidLength
  /-- A name that is none of the variants. -/
  | unknownVariant
  /-- A text that is no system ID. -/
  | systemId (error : SystemIdError)
  /-- Another text that does not have the form that is due. -/
  | malformed
deriving DecidableEq, Repr

/-- The wording of a misreading. -/
def Misread.message : Misread → String
  | missingField => "missing field"
  | unknownField => "unknown field"
  | invalidType => "invalid type"
  | invalidValue => "invalid value"
  | invalidLength => "invalid length"
  | unknownVariant => "unknown variant"
  | systemId error => error.message
  | malformed => "other"

/-- A way to take a document apart. -/
abbrev Reader (α : Type u) := Document → Except Misread α

/-- A type whose values are written as documents and read from them. -/
class Form (α : Type u) where
  write : α → Document
  read : Reader α

export Form (write read)

namespace Reader

/-- A natural number below a bound. -/
def natBelow (bound : Nat) : Reader Nat
  | .integer n => if 0 ≤ n ∧ n < bound then .ok n.toNat else .error .invalidValue
  | _ => .error .invalidType

/-- A text. -/
def text : Reader String
  | .text value => .ok value
  | _ => .error .invalidType

/-- A text of a certain form. -/
def formatted (parse? : String → Option α) : Reader α
  | .text value => (parse? value).elim (.error .malformed) .ok
  | _ => .error .invalidType

/-- Null for no value. -/
def optional (read : Reader α) : Reader (Option α)
  | .null => .ok none
  | document => some <$> read document

/-- A list of values. -/
def list (read : Reader α) : Reader (List α)
  | .list items => items.mapM read
  | _ => .error .invalidType

/-- A variant: its name, or an object with its name as the only field and its content as the value.
The content of a plain variant is null. -/
def variant (plain : List (String × α)) (filled : List (String × Reader α)) : Reader α
  | .text name =>
    match plain.lookup name, filled.lookup name with
    | some value, _ => .ok value
    | none, some _ => .error .invalidType
    | none, none => .error .unknownVariant
  | .object [(name, content)] =>
    match plain.lookup name, filled.lookup name, content with
    | some value, _, .null => .ok value
    | some _, _, _ => .error .invalidType
    | none, some read, content => read content
    | none, none, _ => .error .unknownVariant
  | .object _ => .error .invalidValue
  | _ => .error .invalidType

end Reader

/-! ### Records -/

/-- How a record is written. -/
inductive Layout where
  | object
  | list
deriving DecidableEq

/-- The misreading that an absent field is. -/
def Layout.absent : Layout → Misread
  | object => .missingField
  | list => .invalidLength

/-- A fault in a record: at a field of the given name, or for lack of a field. -/
structure FieldFault where
  name : Option String
  fault : Misread

/-- The fields of a record, in order, and how to put the record together from their values. All
faults are gathered, in the order of the fields. -/
structure Fields (α : Type u) where
  names : List String
  gather : Layout → (String → Option Document) → Except (List FieldFault) α

namespace Fields

/-- A record is put together by giving a function the values of its fields one after another. -/
instance : Applicative Fields where
  pure value := ⟨[], fun _ _ => .ok value⟩
  seq function argument := {
    names := function.names ++ (argument ()).names
    gather := fun layout lookup =>
      match function.gather layout lookup, (argument ()).gather layout lookup with
      | .ok f, .ok a => .ok (f a)
      | .error faults, .ok _ => .error faults
      | .ok _, .error faults => .error faults
      | .error faults, .error faults' => .error (faults ++ faults') }

/-- One field, with what to do if it is absent. -/
def fieldOr (name : String) (read : Reader α) (absent : Layout → Except Misread α) : Fields α where
  names := [name]
  gather layout lookup :=
    match lookup name with
    | some document =>
      (read document).mapError fun fault => [⟨some name, fault⟩]
    | .none => (absent layout).mapError fun fault => [⟨.none, fault⟩]

/-- A field that has to be there. -/
def field (name : String) (read : Reader α) : Fields α :=
  fieldOr name read fun layout => .error layout.absent

/-- A field that may be null; it may also be absent from an object. -/
def optional (name : String) (read : Reader α) : Fields (Option α) :=
  fieldOr name (Reader.optional read) fun
    | .object => .ok .none
    | .list => .error Layout.list.absent

/-- A field with a default. -/
def default (name : String) (read : Reader α) (value : α) : Fields α :=
  fieldOr name read fun _ => .ok value

/-- The fault to report for the fields of an object. -/
def firstFault? (fields : Fields α) (strict : Bool) (faults : List FieldFault)
    (entries : List (String × Document)) : Option Misread :=
  let faultAt (name : String) : Option Misread :=
    if fields.names.contains name then
      (faults.find? fun fault => fault.name = some name).map (·.fault)
    else if strict then some .unknownField
    else .none
  -- An absent field is reported only if no present one is at fault.
  match entries.findSome? fun entry => faultAt entry.1 with
  | some fault => some fault
  | .none => faults.head?.map (·.fault)

/-- Reads the fields of an object. A strict record refuses fields that it does not have. -/
def readObject (fields : Fields α) (strict : Bool) (entries : List (String × Document)) :
    Except Misread α :=
  let result := fields.gather .object fun name => entries.lookup name
  let faults := match result with
    | .ok _ => []
    | .error faults => faults
  match fields.firstFault? strict faults entries, result with
  | some fault, _ => .error fault
  | .none, .ok value => .ok value
  | .none, .error _ => .error .malformed

/-- Reads the fields of a list. -/
def readList (fields : Fields α) (items : List Document) : Except Misread α :=
  match fields.gather .list fun name => (fields.names.zip items).lookup name with
  | .ok value =>
    if items.length ≤ fields.names.length then .ok value else .error .invalidLength
  | .error faults => .error ((faults.head?.map (·.fault)).getD .malformed)

/-- Reads a record from an object or a list. -/
def read (fields : Fields α) (strict : Bool) : Reader α
  | .object entries => fields.readObject strict entries
  | .list items => fields.readList items
  | _ => .error .invalidType

/-- Reads a record and ignores fields that it does not have. -/
def lenient (fields : Fields α) : Reader α := fields.read false

/-- Reads a record and refuses fields that it does not have. -/
def strict (fields : Fields α) : Reader α := fields.read true

end Fields

end LinkState

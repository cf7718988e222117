import ImportXref.Text.Basic

/-!
# TOML — what a document holds

An item is a value, a table or an array of tables.  How a table came about decides what may still
be added to it: an inline table is closed, a table with a header of its own is not opened again,
one implied by a longer header may be, and one made by dotted keys takes more dotted keys.
-/

namespace ImportXref.Toml

/-- How a table came about. -/
inductive Origin where
  /-- Written between braces. -/
  | inlined
  /-- Opened by its own header. -/
  | header
  /-- Implied by the header of a table inside it. -/
  | implied
  /-- Made by a dotted key. -/
  | dotted
  deriving DecidableEq, Repr

/-- A value without parts. -/
inductive Scalar where
  | text (t : Text)
  | boolean (b : Bool)
  | integer (n : Int)
  /-- A number with a fraction or an exponent, as written. -/
  | float (written : Text)
  /-- A date, a time or both, as written. -/
  | dateTime (written : Text)
  deriving DecidableEq, Repr

/-- What a key stands for. -/
inductive Item where
  | scalar (s : Scalar)
  | list (items : List Item)
  | table (origin : Origin) (fields : List (Text × Item))
  /-- An array of tables, one for each header in double brackets. -/
  | tables (elements : List (List (Text × Item)))

/-- Keys and what they stand for, each key once. -/
abbrev Fields := List (Text × Item)

namespace Fields

/-- Whether the key is in use. -/
def has (fields : Fields) (key : Text) : Bool :=
  (fields.lookup key).isSome

/-- Puts another item in the place of the one that `key` stands for. -/
def replace (fields : Fields) (key : Text) (item : Item) : Fields :=
  fields.map fun (k, old) => (k, if k = key then item else old)

/-- Adds a key and its item at the end. -/
def add (fields : Fields) (key : Text) (item : Item) : Fields :=
  fields ++ [(key, item)]

/-- Takes a key away. -/
def remove (fields : Fields) (key : Text) : Fields :=
  fields.filter (·.1 != key)

/-- Puts `item` under `key` in the table that the dotted path `path` leads to.  A key in use, a
closed table and a table with a header of its own refuse it. -/
def insertDotted : List Text → Text → Item → Fields → Option Fields
  | [], key, item, fields => if fields.has key then none else some (fields.add key item)
  | p :: path, key, item, fields =>
    match fields.lookup p with
    | none =>
      (insertDotted path key item []).map fun inner => fields.add p (.table .dotted inner)
    | some (.table .dotted inner) =>
      (insertDotted path key item inner).map fun inner =>
        fields.replace p (.table .dotted inner)
    | some (.table .implied inner) =>
      if path = [] then none
      else (insertDotted path key item inner).map fun inner =>
        fields.replace p (.table .implied inner)
    | some (.tables elements) =>
      match path, elements.getLast? with
      | _ :: _, some last =>
        (insertDotted path key item last).map fun last =>
          fields.replace p (.tables (elements.dropLast ++ [last]))
      | _, _ => none
    | some _ => none

/-- Changes the table that the path of a header leads to.  Tables on the way that do not exist
are implied; of an array of tables the last one is meant. -/
def changeAt (change : Fields → Option Fields) : List Text → Fields → Option Fields
  | [], fields => change fields
  | p :: path, fields =>
    match fields.lookup p with
    | none => (changeAt change path []).map fun inner => fields.add p (.table .implied inner)
    | some (.table .inlined _) => none
    | some (.table origin inner) =>
      (changeAt change path inner).map fun inner => fields.replace p (.table origin inner)
    | some (.tables elements) =>
      match elements.getLast? with
      | some last =>
        (changeAt change path last).map fun last =>
          fields.replace p (.tables (elements.dropLast ++ [last]))
      | none => none
    | some _ => none

/-- The table that the path of a header leads to, if all of it exists. -/
def at? : List Text → Fields → Option Fields
  | [], fields => some fields
  | p :: path, fields =>
    match fields.lookup p with
    | some (.table _ inner) => at? path inner
    | some (.tables elements) => elements.getLast?.bind (at? path)
    | _ => none

end Fields

end ImportXref.Toml

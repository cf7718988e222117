import ImportXref.Text.Quoted

/-!
# Refusals — why a file cannot be named or a reference cannot be recorded

Each cause is a constructor; `RecordError.message` holds the wording.
-/

namespace ImportXref

/-- Why a module file cannot be named or a reference cannot be recorded. -/
inductive RecordError where
  /-- A file name without the extension of a source file. -/
  | missingExtension (filename : Text)
  /-- A source that still holds a path separator. -/
  | separatorInSource (source : Text)
  /-- An imported symbol that is blank or dotted. -/
  | malformedSymbol (symbol : Text)
  /-- A relative reference that leaves the top-level package of `module`. -/
  | depthExceeded (reference module : Text) (depth : Nat)
  deriving DecidableEq, Repr

namespace RecordError

/-- The wording of a refusal. -/
def message : RecordError → Text
  | missingExtension filename =>
    "not a python module filename: ".toList ++ filename.quoted
  | separatorInSource source =>
    "reference source contains a path separator: ".toList ++ source.quoted
  | malformedSymbol symbol =>
    "malformed imported symbol: ".toList ++ symbol.quoted
  | depthExceeded reference module depth =>
    "relative import ".toList ++ reference.quoted ++ " goes ".toList ++ Text.ofNat depth ++
      " level(s) up from ".toList ++ module.quoted ++ ", beyond its top-level package".toList

end RecordError

end ImportXref

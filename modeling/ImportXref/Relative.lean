import ImportXref.RecordError

/-!
# Relative references — from a reference to an absolute dotted name

A reference with `p > 0` leading dots counts from the `p`-th location of the module that holds it:
the module itself is location 0, its package location 1, and so on up to the top-level package.
-/

namespace ImportXref

/-- The parts of a dotted name that end just before a dot, the shortest first. -/
def properAncestors : Text → List Text
  | [] => []
  | c :: t =>
    let longer := (properAncestors t).map (c :: ·)
    if c = '.' then [] :: longer else longer

/-- A module's locations: the module itself, then its packages up to the top-level one. -/
def locations (module : Text) : List Text :=
  module :: (properAncestors module).reverse

/-- The number of dots at the front of a reference. -/
def leadingDots (reference : Text) : Nat :=
  (reference.takeWhile (· == '.')).length

/-- The part of a reference after the dots at its front. -/
def afterDots (reference : Text) : Text :=
  reference.dropWhile (· == '.')

/-- The absolute name of `reference` for a module with the locations `places`. -/
def absoluteName (reference : Text) (places : List Text) : Except RecordError Text :=
  let depth := leadingDots reference
  if depth = 0 then .ok reference
  else match places[depth]? with
    | none => .error (.depthExceeded reference (places.head?.getD []) depth)
    | some base =>
      let rest := afterDots reference
      .ok (if rest = [] then base else base ++ '.' :: rest)

/-- The absolute name of `reference` as it stands in `module`. -/
def resolve (module reference : Text) : Except RecordError Text :=
  absoluteName reference (locations module)

end ImportXref

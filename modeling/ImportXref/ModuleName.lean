import ImportXref.RecordError

/-!
# Module names — the dotted name of a source file

`app/talks/models.py` is the module `app.talks.models`; a backslash separates like a slash.  The
module `app.__init__` of a package shares the name `app` with it.

* `moduleName_eq_ok_iff`: exactly the file names that end in `.py` have a module name.
-/

namespace ImportXref

/-- The ending of a source file's name. -/
def sourceEnding : Text := ['.', 'p', 'y']

/-- The ending of the module that initialises a package. -/
def initializerEnding : Text := ['.', '_', '_', 'i', 'n', 'i', 't', '_', '_']

/-- A slash or a backslash. -/
def isSeparator (c : Char) : Bool :=
  c = '/' || c = '\\'

/-- The text with a dot for each separator. -/
def dotted (t : Text) : Text :=
  t.map fun c => if isSeparator c then '.' else c

/-- The name of the module in the file `filename`. -/
def moduleName (filename : Text) : Except RecordError Text :=
  match Text.dropEnd? sourceEnding filename with
  | some stem => .ok (dotted stem)
  | none => .error (.missingExtension filename)

/-- The name of the package for its initializer module, any other name as it is. -/
def packageName (module : Text) : Text :=
  (Text.dropEnd? initializerEnding module).getD module

/-- A file has the name of a module exactly if it has the ending of sources. -/
theorem moduleName_eq_ok_iff {filename m : Text} :
    moduleName filename = .ok m ↔ ∃ stem, filename = stem ++ sourceEnding ∧ m = dotted stem := by
  unfold moduleName
  cases h : Text.dropEnd? sourceEnding filename with
  | some stem =>
    obtain rfl := Text.dropEnd?_eq_some_iff.mp h
    simp [eq_comm]
  | none =>
    simp only [reduceCtorEq, false_iff, not_exists, not_and]
    intro stem he
    rw [Text.dropEnd?_eq_some_iff.mpr he] at h
    cases h

/-- An initializer belongs to the package around it. -/
theorem packageName_append (p : Text) : packageName (p ++ initializerEnding) = p := by
  rw [packageName, Text.dropEnd?_eq_some_iff.mpr rfl, Option.getD_some]

theorem packageName_of_not_suffix {m : Text} (h : ¬ initializerEnding <:+ m) :
    packageName m = m := by
  cases hd : Text.dropEnd? initializerEnding m with
  | none => rw [packageName, hd, Option.getD_none]
  | some p => exact absurd ⟨p, (Text.dropEnd?_eq_some_iff.mp hd).symm⟩ h

/-- The package name of an initializer module is another name. -/
theorem packageName_ne_self {m : Text} (h : initializerEnding <:+ m) : packageName m ≠ m := by
  obtain ⟨p, rfl⟩ := h
  rw [packageName_append]
  exact fun he => by simpa [initializerEnding] using congrArg List.length he

end ImportXref

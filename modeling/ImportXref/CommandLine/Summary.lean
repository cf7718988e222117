import ImportXref.Report.Json
import ImportXref.Scan

/-!
# Summaries — what a scan tells its user

A summary is printed as lines of text or as a JSON object.  How long a scan took is not measured:
it counts as no time.
-/

namespace ImportXref

/-- What a scan came to. -/
structure Summary where
  /-- The name of the project. -/
  project : Text
  /-- The scan itself. -/
  scan : Scan
  /-- How many references the table leaves out. -/
  dropped : Nat
  /-- The reports that were written. -/
  reports : List Path

namespace Summary

/-- A line of text. -/
def textLine (parts : List Text) : Text :=
  parts.flatten ++ ['\n']

/-- The summary as lines of text. -/
def human (s : Summary) : Text :=
  textLine ["Scanned ".toList, s.project, " (".toList, Text.ofNat s.scan.files.length,
      " files) in 0.00s".toList] ++
    textLine ["  ".toList, Text.ofNat s.scan.importLines, " import lines, ".toList,
      Text.ofNat s.scan.index.referenceCount, " references, ".toList,
      Text.ofNat s.scan.index.inProjectCount, " in project scope".toList] ++
    s.reports.flatMap fun p => textLine ["  wrote ".toList, p.display]

/-- The summary as a JSON value. -/
def toJson (s : Summary) : Json :=
  .object [
    ("project".toList, .text s.project),
    ("file_count".toList, .number s.scan.files.length),
    ("import_lines".toList, .number s.scan.importLines),
    ("references".toList, .number s.scan.index.referenceCount),
    ("scoped_references".toList, .number s.scan.index.inProjectCount),
    ("dropped_references".toList, .number s.dropped),
    ("elapsed_secs".toList, .number 0),
    ("reports".toList, .ofTexts (s.reports.map Path.display))]

/-- What is printed. -/
def print (s : Summary) (json : Bool) : Text :=
  if json then s.toJson.pretty ++ ['\n'] else s.human

/-- The warning about references that the table leaves out. -/
def warning (s : Summary) (json : Bool) : Text :=
  if json || s.dropped = 0 then []
  else textLine ["  ".toList, Text.ofNat s.dropped,
    " references left out of the table (no matching module column)".toList]

end Summary

end ImportXref

import ImportXref.Report.Markup
import ImportXref.Report.Table

/-!
# The page — a table as a standalone HTML document

The header row repeats the headers of the table.  The row `r` is labelled with header `r + 1`
and lists, in each cell, the names of the references with their full entries as tooltips.
-/

namespace ImportXref.Page

open Markup (Piece)

/-- Lines with line feeds between them. -/
def ofLines (lines : List String) : String :=
  "\n".intercalate lines

/-- The style sheet. -/
def style : String :=
  ofLines [
    "",
    "body \x7b font-family: sans-serif; font-size: 13px; \x7d",
    "table.hover-grid \x7b border-collapse: collapse; \x7d",
    "table.hover-grid th, table.hover-grid td \x7b border: 1px " ++
      "solid #ccc; padding: 2px 4px; vertical-align: top; \x7d",
    "table.hover-grid thead th \x7b writing-mode: vertical-rl; " ++
      "transform: rotate(180deg); white-space: nowrap; \x7d",
    "table.hover-grid tbody th \x7b text-align: left; white-space: nowrap; \x7d",
    "table.hover-grid span \x7b display: block; \x7d",
    ""]

/-- The script that lights up the row and the column under the pointer. -/
def hoverScript : String :=
  ofLines [
    "",
    "document.querySelectorAll('table.hover-grid td').forEach(function (td) \x7b",
    "  function paint(color) \x7b",
    "    var row = td.parentElement;",
    "    var col = Array.prototype.indexOf.call(row.children, td);",
    "    Array.prototype.forEach.call(row.children, function " ++
      "(c) \x7b c.style.backgroundColor = color; \x7d);",
    "    document.querySelectorAll('table.hover-grid tr').forEach(function (tr) \x7b",
    "      if (tr.children[col]) \x7b tr.children[col].style.backgroundColor = color; \x7d",
    "    \x7d);",
    "  \x7d",
    "  td.addEventListener('mouseover', function () \x7b paint('#EAD575'); \x7d);",
    "  td.addEventListener('mouseleave', function () \x7b paint(''); \x7d);",
    "\x7d);",
    ""]

/-- The title of a project's page. -/
def title (name : Text) : Text :=
  "Cross-reference: ".toList ++ name

/-- Everything before the table. -/
def opening (name root : Text) : List Piece :=
  [.markup "<!DOCTYPE html>\n<html>\n<head>\n<meta charset=\"utf-8\">\n<title>",
    .text (title name),
    .markup "</title>\n<style>", .markup style, .markup "</style>\n</head>\n<body>\n<h1>",
    .text (title name),
    .markup "</h1>\n<p>Project root: <code>", .text root, .markup "</code></p>\n"]

/-- One header of the header row. -/
def headerCell (header : Text) : List Piece :=
  [.markup "<th>", .text header, .markup "</th>\n"]

/-- The header row, whose first cell is above the labels of the rows. -/
def headerRow (headers : List Text) : List Piece :=
  .markup "<table class=\"hover-grid\">\n<thead><tr><th></th>\n" ::
    headers.flatMap headerCell ++ [.markup "</tr></thead>\n"]

/-- A reference in a cell. -/
def citation (c : Citation) : List Piece :=
  [.markup "<span title=\"", .text c.fullname, .markup "\">", .text c.name, .markup "</span>"]

/-- A cell. -/
def cell (citations : List Citation) : List Piece :=
  .markup "<td>" :: citations.flatMap citation ++ [.markup "</td>\n"]

/-- A row and its label. -/
def row (label : Text) (cells : List (List Citation)) : List Piece :=
  [.markup "<tr><th>", .text label, .markup "</th>\n"] ++ cells.flatMap cell ++
    [.markup "</tr>\n"]

/-- The label of the row `r`; empty if there are not enough headers. -/
def label (headers : List Text) (r : Nat) : Text :=
  (headers[r + 1]?).getD []

/-- The rows of a table. -/
def body (t : Table) : List Piece :=
  .markup "<tbody>\n" ::
    (t.rows.mapIdx fun r cells => row (label t.headers r) cells).flatten ++
      [.markup "</tbody>\n</table>\n"]

/-- Everything after the table. -/
def closing : List Piece :=
  [.markup "<script>", .markup hoverScript, .markup "</script>\n</body>\n</html>\n"]

/-- The pieces of the page of a table. -/
def pieces (t : Table) (name root : Text) : List Piece :=
  opening name root ++ headerRow t.headers ++ body t ++ closing

/-- The page of a table for the project `name` at `root`. -/
def render (t : Table) (name root : Text) : Text :=
  Markup.render (pieces t name root)

end ImportXref.Page

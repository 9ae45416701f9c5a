import ThrowCatch.Render.Cells
import ThrowCatch.Text.Search

/-!
Laying text out in terminal cells: columns, panels and framed tables. A text
may have several lines; a row is as high as its highest cell.
-/

namespace ThrowCatch.Render

inductive Side
  | left | right
  deriving DecidableEq, Repr

def blanks (n : Nat) : String := Text.repeatChar ' ' n

/-- Controls that a terminal would act on are left out. -/
def isSilent (c : Char) : Bool :=
  [7, 8, 11, 12, 13].contains c.toNat

/-- Replaces tabs by blanks up to the next multiple of eight cells. -/
def expandTabs (column : Nat) : List Char → List Char
  | [] => []
  | c :: cs =>
    if c == '\t' then
      let n := 8 - column % 8
      List.replicate n ' ' ++ expandTabs (column + n) cs
    else c :: expandTabs (column + charCells c) cs

def lines (s : String) : List String :=
  (Text.splitAt '\n' (s.toList.filter fun c => !isSilent c)).map fun l =>
    String.ofList (expandTabs 0 l)

def pad (side : Side) (width : Nat) (s : String) : String :=
  match side with
  | .left => s ++ blanks (width - cells s)
  | .right => blanks (width - cells s) ++ s

/-- A text in the middle of a width, filled up with a character; of an odd
number of them the smaller half is on the left. -/
def centre (fill : Char) (width : Nat) (s : String) : String :=
  let spare := width - cells s
  Text.repeatChar fill (spare / 2) ++ s ++ Text.repeatChar fill (spare - spare / 2)

/-- A row of cells, each a list of lines. -/
abbrev Row := List (List String)

def row (texts : List String) : Row := texts.map lines

def maximum (ns : List Nat) : Nat := ns.foldl max 0

def columnWidth (rows : List Row) (i : Nat) : Nat :=
  maximum (rows.flatMap fun r => (r[i]?.getD []).map cells)

def columnWidths (columns : Nat) (rows : List Row) : List Nat :=
  (List.range columns).map (columnWidth rows)

/-- The lines of a row: for each line the cells padded to their columns, with
one blank on both sides. -/
def rowLines (sides : List Side) (widths : List Nat) (r : Row) : List (List String) :=
  (List.range (maximum (r.map List.length))).map fun i =>
    (List.range widths.length).map fun j =>
      " " ++ pad (sides[j]?.getD .left) (widths[j]?.getD 0) (((r[j]?.getD [])[i]?).getD "") ++ " "

def plainTable (sides : List Side) (rows : List Row) : List String :=
  let widths := columnWidths sides.length rows
  rows.flatMap fun r => (rowLines sides widths r).map (Text.join "")

/-- A frame with a title around some lines. -/
def panel (title : String) (content : List String) : List String :=
  let title := " " ++ Text.join " " (lines title) ++ " "
  let inner := max (maximum (content.map cells) + 2) (cells title + 2)
  ["╭─" ++ centre '─' (inner - 2) title ++ "─╮"] ++
    content.map (fun l => "│ " ++ pad .left (inner - 2) l ++ " │") ++
    ["╰" ++ Text.repeatChar '─' inner ++ "╯"]

/-- A line of a frame: a stroke for each column between marks. -/
def rule (first stroke middle last : Char) (widths : List Nat) : String :=
  String.singleton first ++
    Text.join (String.singleton middle) (widths.map fun w => Text.repeatChar stroke (w + 2)) ++
    String.singleton last

/-- A table with a heavy frame around its head and a title above it. -/
def framedTable (title : String) (sides : List Side) (head : Row) (rows : List Row) :
    List String :=
  let widths := columnWidths sides.length (head :: rows)
  let total := widths.foldl (fun n w => n + w + 3) 1
  let inside := fun (bar : String) (r : Row) =>
    (rowLines sides widths r).map fun cs => bar ++ Text.join bar cs ++ bar
  [centre ' ' total title, rule '┏' '━' '┳' '┓' widths] ++ inside "┃" head ++
    [rule '┡' '━' '╇' '┩' widths] ++ rows.flatMap (inside "│") ++
    [rule '└' '─' '┴' '┘' widths]

end ThrowCatch.Render

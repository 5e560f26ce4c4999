/-!
# Tables

Cells of text in rows and columns. `Table.framed` draws a frame around centred cells under a row of
headers, `Table.plain` aligns cells to the left and draws nothing.
-/

namespace StrategyGraph.Text.Table

/-- The width that each column needs. -/
def widths (rows : List (List String)) : List Nat :=
  rows.foldl (fun ws row =>
    (List.range (max ws.length row.length)).map fun i =>
      max (ws.getD i 0) ((row.getD i "").length)) []

/-- `n` times the character. -/
def fill (n : Nat) (c : Char) : String := String.ofList (List.replicate n c)

/-- The cell in the middle of `width` characters, nearer to the left if it cannot be exact. -/
def centred (width : Nat) (cell : String) : String :=
  let free := width - cell.length
  fill (free / 2) ' ' ++ cell ++ fill (free - free / 2) ' '

/-- The cell at the left of `width` characters. -/
def toLeft (width : Nat) (cell : String) : String := cell ++ fill (width - cell.length) ' '

/-- The text without spaces at its end. -/
def dropSpaces (s : String) : String :=
  String.ofList ((s.toList.reverse.dropWhile (· = ' ')).reverse)

/-- Lines with line ends between them. -/
def lines (ls : List String) : String := "\n".intercalate ls

/-- A framed table of centred cells. -/
def framed (headers : List String) (rows : List (List String)) : String :=
  let ws := widths (headers :: rows)
  let rule := "+" ++ String.join (ws.map fun w => fill (w + 2) '-' ++ "+")
  let line := fun row : List String =>
    "|" ++ String.join (List.zipWith (fun w cell => " " ++ centred w cell ++ " |") ws row)
  lines ([rule, line headers, rule] ++ rows.map line ++ [rule])

/-- A table without a frame, its columns two spaces apart. -/
def plain (rows : List (List String)) : String :=
  let ws := widths rows
  lines (rows.map fun row => dropSpaces ("  ".intercalate (List.zipWith toLeft ws row)))

end StrategyGraph.Text.Table

/-!
# Text — Split

Cutting text at a separator.
-/

namespace TracedMachine.Text

/-- The pieces of a text between separators; there is one more than there are separators. -/
def splitAt (sep : Char) : List Char → List (List Char)
  | [] => [[]]
  | c :: cs =>
    if c = sep then [] :: splitAt sep cs
    else
      match splitAt sep cs with
      | [] => [[c]]
      | piece :: pieces => (c :: piece) :: pieces

/-- What stands before and after the first separator, if there is one. -/
def splitOnce? (sep : Char) : List Char → Option (List Char × List Char)
  | [] => none
  | c :: cs =>
    if c = sep then some ([], cs)
    else (splitOnce? sep cs).map fun (before, after) => (c :: before, after)

/-- What follows `start` in a text that begins with it. -/
def dropStart? : List Char → List Char → Option (List Char)
  | [], cs => some cs
  | _ :: _, [] => none
  | s :: start, c :: cs => if s = c then dropStart? start cs else none

/-- A line without the carriage return at its end. -/
def dropReturn (line : List Char) : List Char :=
  if line.getLast? = some '\r' then line.dropLast else line

/-- The lines of a text.  A line feed ends a line, with a carriage return before it or without;
what follows the last line feed is a line too unless it is empty. -/
def lines (text : List Char) : List (List Char) :=
  match (splitAt '\n' text).reverse with
  | [] => []
  | last :: ended =>
    (ended.map dropReturn).reverse ++ if last.isEmpty then [] else [last]

end TracedMachine.Text

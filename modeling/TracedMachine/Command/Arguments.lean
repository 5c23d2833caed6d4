import TracedMachine.Text.Split

/-!
# Command — Arguments

Reading the words of a command line.  An option has a long name, and may have a letter.  One with a
value takes it from the same word or from the next: `--size 1`, `--size=1`, `-s 1`, `-s1` and `-s=1`
all say the same.  A next word that looks like an option is no value.  After `--` every word is an
operand.
-/

namespace TracedMachine

/-- One thing that a command line says. -/
inductive Argument where
  /-- An option with its value. -/
  | setting (name value : String)
  /-- An option without a value. -/
  | switch (name : String)
  /-- A word that is no option. -/
  | operand (text : String)
deriving DecidableEq, Repr

/-- The options that a command knows. -/
structure OptionTable where
  /-- The options with a value and their letters. -/
  settings : List (String × Option Char) := []
  /-- The options without a value. -/
  switches : List String := []

/-- What a single word is. -/
inductive WordKind where
  /-- It says something by itself. -/
  | whole (argument : Argument)
  /-- It is an option that waits for its value. -/
  | awaiting (name : String)
  /-- Only operands follow it. -/
  | lastOption
  /-- It is an option that nobody knows, or has a value that it cannot have. -/
  | unknown

/-- The word begins like an option; a single dash does not. -/
def looksLikeOption (word : List Char) : Bool := word.head? = some '-' && word ≠ ['-']

namespace OptionTable

/-- What a word after two dashes is. -/
def longKind (t : OptionTable) (body : List Char) : WordKind :=
  match Text.splitOnce? '=' body with
  | some (name, value) =>
    let name := String.ofList name
    if t.settings.any (·.1 = name) then .whole (.setting name (String.ofList value)) else .unknown
  | none =>
    let name := String.ofList body
    if t.switches.contains name then .whole (.switch name)
    else if t.settings.any (·.1 = name) then .awaiting name
    else .unknown

/-- What a word after one dash is. -/
def shortKind (t : OptionTable) (letter : Char) (rest : List Char) : WordKind :=
  match t.settings.find? (·.2 = some letter), rest with
  | some (name, _), [] => .awaiting name
  | some (name, _), '=' :: value => .whole (.setting name (String.ofList value))
  | some (name, _), value => .whole (.setting name (String.ofList value))
  | none, _ => .unknown

/-- What a word is. -/
def kind (t : OptionTable) (word : String) : WordKind :=
  match word.toList with
  | ['-', '-'] => .lastOption
  | '-' :: '-' :: body => t.longKind body
  | '-' :: letter :: rest => t.shortKind letter rest
  | _ => .whole (.operand word)

/-- What words say, unless one of them makes no sense. -/
def read? (t : OptionTable) : List String → Option (List Argument)
  | [] => some []
  | word :: words =>
    match t.kind word with
    | .whole a => (t.read? words).map (a :: ·)
    | .lastOption => some (words.map .operand)
    | .unknown => none
    | .awaiting name =>
      match words with
      | [] => none
      | value :: words =>
        if looksLikeOption value.toList then none
        else (t.read? words).map (.setting name value :: ·)

end OptionTable

/-- The name of the option that an argument gives. -/
def Argument.option? : Argument → Option String
  | setting name _ | switch name => some name
  | operand _ => none

/-- No option is given twice. -/
def Argument.distinct (args : List Argument) : Bool := decide (args.filterMap option?).Nodup

end TracedMachine

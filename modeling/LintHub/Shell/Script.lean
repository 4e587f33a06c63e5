/-! # Shell scripts

The commands of a script. A word is made of parts, some of which stand for text that is known only
when the script is run.
-/

namespace LintHub.Shell

/-- What is done with a stream of a command. -/
inductive Redirection where
  | read
  | write
  | append
  | duplicate
  deriving DecidableEq, Repr

mutual

/-- A part of a word. What stands in quotes is not split at blanks. -/
inductive Part where
  | text (s : String) (quoted : Bool)
  | value (name : String) (quoted : Bool)
  /-- A value, or other parts where it is empty. -/
  | valueOr (name : String) (other : List Part) (quoted : Bool)
  /-- What a command prints. -/
  | output (body : Command) (quoted : Bool)

inductive Command where
  | nothing
  /-- Variables that are set, and the words of a program with its arguments. -/
  | simple (line : Nat) (sets : List (String × List Part)) (words : List (List Part))
  | redirected (body : Command) (stream : Nat) (how : Redirection) (target : List Part)
  | sequence (first second : Command)
  | andThen (first second : Command)
  | orElse (first second : Command)
  | negated (body : Command)
  | choice (condition yes no : Command)
  /-- A loop that goes on while its condition succeeds, or until it does. -/
  | loop (untilDone : Bool) (condition body : Command)
  /-- A loop over words; over the arguments if none are given. -/
  | each (name : String) (words : Option (List (List Part))) (body : Command)
  | pipe (source sink : Command)
  | subshell (body : Command)

end

abbrev Word := List Part

instance : Inhabited Command := ⟨.nothing⟩

end LintHub.Shell

import PollWatch.Bytes
/-!
# Shell commands

The structure of a command line as the shell reads it: words with their quoting and expansions,
and commands built from them.

The shell works on bytes. Here each byte is written as the character of the same number.
-/

namespace PollWatch.Shell

/-- A byte string, each byte written as the character of the same number. -/
abbrev Chars := List Char

/-- A byte string as characters. -/
def ofBytes (b : Bytes) : Chars := b.map fun x => Char.ofNat x.toNat

/-- The bytes of such characters. -/
def toBytes (cs : Chars) : Bytes := cs.map fun c => UInt8.ofNat c.toNat

/-- The bytes of a text, written as characters. -/
def ofString (s : String) : Chars := ofBytes (Bytes.ofString s)

/-- What an expansion does when its parameter has no value. -/
inductive Fallback where
  /-- Use the word instead. -/
  | default
  /-- Use the word instead and assign it. -/
  | assign
  /-- Fail with the word as message. -/
  | fail
  /-- Use the word if there is a value, and nothing otherwise. -/
  | alternative
deriving DecidableEq

/-- How a word is put onto a file descriptor. -/
inductive RedirectKind where
  | input
  | output
  | append
  | readWrite
  /-- Copy another descriptor, or close this one. -/
  | duplicate
deriving DecidableEq

mutual

/-- A part of a word. The flag of an expansion says whether it stands in double quotes. -/
inductive Part where
  /-- Text that is not quoted; it may hold pattern characters. -/
  | plain (cs : Chars)
  /-- Text that is quoted. -/
  | quoted (cs : Chars)
  | parameter (name : Chars) (m : Modifier) (inQuotes : Bool)
  | command (c : Command) (inQuotes : Bool)
  | arithmetic (expression : List Part) (inQuotes : Bool)

/-- What is done with the value of a parameter. -/
inductive Modifier where
  | none
  | length
  /-- The flag says whether an empty value counts as none. -/
  | fallback (f : Fallback) (orEmpty : Bool) (word : List Part)
  /-- Cut a match of the pattern off the end or the beginning, the longest or the shortest. -/
  | strip (atEnd longest : Bool) (pattern : List Part)
  | bad

/-- A redirection. -/
inductive Redirect where
  | file (fd : Nat) (kind : RedirectKind) (word : List Part)
  /-- The text of the here-document with this number. -/
  | document (fd : Nat) (number : Nat)

/-- A command. -/
inductive Command where
  | nothing
  /-- Assignments, words and redirections, with the number of the line. -/
  | simple (line : Nat) (assignments : List (Chars × List Part)) (words : List (List Part))
      (redirects : List Redirect)
  | negated (c : Command)
  | pipeline (cs : List Command)
  | both (a b : Command)
  | either (a b : Command)
  | sequence (a b : Command)
  | background (c : Command)
  | subshell (c : Command)
  | redirected (c : Command) (redirects : List Redirect)
  /-- A loop over words, or over the arguments if none are written. -/
  | forEach (name : Chars) (words? : Option (List (List Part))) (body : Command)
  | select (word : List Part) (branches : List (List (List Part) × Command))
  | branch (condition yes no : Command)
  /-- A loop that goes on while the condition succeeds, or until it does. -/
  | loop (isUntil : Bool) (condition body : Command)
  | define (name : Chars) (body : Command)

end

/-- A word: its parts from left to right. -/
abbrev Word := List Part

end PollWatch.Shell

/-
Breaking text into lines of a given width.

Words are put on a line while they fit, with one space between them.  A word
longer than a line starts a line of its own, fills as many lines as it can and
leaves its end for the words that follow.
-/
import Receipt.Text.Blank

namespace Receipt.Text

/-- A long word in pieces: those that fill a line each, and the end. -/
def breakWord (width : Nat) (word : List Char) : List (List Char) × List Char :=
  if _h : 0 < width ∧ width < word.length then
    let (full, last) := breakWord width (word.drop width)
    (word.take width :: full, last)
  else ([], word)
termination_by word.length
decreasing_by simp; omega

/-- A word after those on the line so far: the lines that this completes, and the
line that goes on.  No line so far is the empty one. -/
def addWord (width : Nat) (line word : List Char) : List (List Char) × List Char :=
  if word.length ≤ width then
    if line.isEmpty then ([], word)
    else if line.length + 1 + word.length ≤ width then ([], line ++ ' ' :: word)
    else ([line], word)
  else
    let (full, last) := breakWord width word
    (if line.isEmpty then full else line :: full, last)

/-- The lines of the words that follow the line so far. -/
def fill (width : Nat) (line : List Char) : List (List Char) → List (List Char)
  | [] => [line]
  | word :: rest =>
    let (completed, line) := addWord width line word
    completed ++ fill width line rest

/-- The lines of a paragraph, at least one. -/
def wrapParagraph (width : Nat) (cs : List Char) : List (List Char) :=
  fill width [] (words cs)

/-- The lines of a text.  Without any width the text stays as it is. -/
def wrapChars (width : Nat) (cs : List Char) : List (List Char) :=
  if width = 0 then [cs] else (paragraphs cs).flatMap (wrapParagraph width)

def wrap (s : String) (width : Nat) : List String :=
  (wrapChars width s.toList).map String.ofList

end Receipt.Text

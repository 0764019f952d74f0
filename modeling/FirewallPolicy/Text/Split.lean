/-!
## Cutting at a separator

The parts of a text between the occurrences of a separator; there is always at least one part.
-/

namespace FirewallPolicy.Text

/-- The parts of `cs` between the separators, empty ones included. -/
def splitAt (separator : Char) : List Char → List (List Char)
  | [] => [[]]
  | c :: rest =>
    if c = separator then [] :: splitAt separator rest
    else
      match splitAt separator rest with
      | [] => [[c]]
      | part :: parts => (c :: part) :: parts

/-- The parts joined with the separator between them. -/
def joinWith (separator : Char) : List (List Char) → List Char
  | [] => []
  | [part] => part
  | part :: parts => part ++ separator :: joinWith separator parts

/-- The parts of the text before and after the first separator, if there is one. -/
def cutAt? (separator : Char) (cs : List Char) : Option (List Char × List Char) :=
  match cs.dropWhile (· != separator) with
  | [] => none
  | _ :: rest => some (cs.takeWhile (· != separator), rest)

/-! ## Line breaks

Texts of files with any of the usual line breaks are read as if all of them were newlines. -/

/-- The characters with each carriage return, alone or before a newline, as a newline. -/
def newlines : List Char → List Char
  | '\r' :: '\n' :: rest => '\n' :: newlines rest
  | '\r' :: rest => '\n' :: newlines rest
  | c :: rest => c :: newlines rest
  | [] => []

/-- The text with newlines for all line breaks. -/
def withNewlines (s : String) : String := String.ofList (newlines s.toList)

end FirewallPolicy.Text

/-!
# Escaping for LaTeX

Literal text is written so that no character of it is taken for a command.
Straight double quotes become two single ones; single quotes are kept, so that
apostrophes survive.
-/

namespace Longform.Latex

/-- What is written for one character of literal text. -/
def escapeChar (c : Char) : List Char :=
  match c with
  | '\\' => "\\textbackslash\x7b\x7d".toList
  | '%' => ['\\', '%']
  | '&' => ['\\', '&']
  | '#' => ['\\', '#']
  | '$' => ['\\', '$']
  | '_' => ['\\', '_']
  | '{' => ['\\', '{']
  | '}' => ['\\', '}']
  | '^' => "\\^\x7b\x7d".toList
  | '~' => "\\textasciitilde\x7b\x7d".toList
  | '<' => "\\textless\x7b\x7d".toList
  | '>' => "\\textgreater\x7b\x7d".toList
  | '|' => "\\textbar\x7b\x7d".toList
  | '"' => ['\'', '\'']
  | c => [c]

/-- Literal text as LaTeX. -/
def escape (s : String) : String := String.ofList (s.toList.flatMap escapeChar)

end Longform.Latex

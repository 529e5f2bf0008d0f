/-!
# LaTeX commands

The two forms in which everything but literal text is written: a command with
its argument, and an environment around some text.
-/

namespace Longform.Latex

/-- A command with one argument: `\name{argument}`. -/
def command (name argument : String) : String := "\\" ++ name ++ "\x7b" ++ argument ++ "\x7d"

/-- A command with one argument on a line of its own. -/
def commandLine (name argument : String) : String := command name argument ++ "\n"

/-- An environment. `options` follows the line that opens it, and `body` ends with a line end of its
own. -/
def environment (name options body : String) : String :=
  command "begin" name ++ options ++ "\n" ++ body ++ commandLine "end" name

end Longform.Latex

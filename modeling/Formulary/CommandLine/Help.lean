import Formulary.CommandLine.Flag
import Formulary.Operator
import Formulary.Text.Padding

/-!
# Usage and help

The usage lines, which stand above every error in the arguments, and the help.
-/

namespace Formulary.CommandLine

def program : String := "render_formula.py"

/-- The short form of the command line, in lines of at most 80 characters. -/
def usage : String :=
  "usage: " ++ program ++ " [-h] [-f FILE] [--tree] [--stats] [--symbols] [-q]\n" ++
  "                         [--debug]\n" ++
  "                         [formula]\n"

/-- The width of the first column of the help. -/
def helpColumn : Nat := 24

/-- One entry of the help. -/
def helpLine (subject description : String) : String :=
  Text.padRight helpColumn ("  " ++ subject) ++ description ++ "\n"

def help : String :=
  usage ++
  "\nRead a fully parenthesized formula and print its canonical form\n" ++
  "\npositional arguments:\n" ++
  helpLine "formula" "Formula text" ++
  "\noptions:\n" ++
  String.join (Flag.all.map fun flag => helpLine flag.invocation flag.description) ++
  "\nExamples:\n" ++
  "  python " ++ program ++ " \"((x + y) * z)\"\n" ++
  "  python " ++ program ++ " -f property.spec --tree\n" ++
  "  python " ++ program ++ " \"((a < b) /\\ (b <= c))\" --stats\n" ++
  "  python " ++ program ++ " --symbols\n" ++
  "\nOperators:\n" ++
  "  " ++ Operator.symbolList ++ "\n" ++
  "        \n"

end Formulary.CommandLine

import Brainfuck.Text.Decimal
import Brainfuck.Text.Quoted

/-!
TOML values, and the words by which a message names one.
-/

namespace Brainfuck.Toml

/-- A value of a document. The entries of a table stand in the order in which they were made. Of
a date or time only is kept that it is one. -/
inductive Value where
  | string (s : String)
  | integer (n : Int)
  | float (x : Float)
  | boolean (b : Bool)
  | datetime
  | array (items : List Value)
  | table (entries : List (String × Value))
  deriving Inhabited

/-- The words for a value in a message. -/
def Value.describe : Value → String
  | .string s => s!"string {Quoted.quote s}"
  | .integer n => s!"integer `{n}`"
  | .float x => s!"floating point `{Decimal.text x}`"
  | .boolean b => s!"boolean `{b}`"
  | .datetime => "map"
  | .array _ => "sequence"
  | .table _ => "map"

end Brainfuck.Toml

import Graft.Decimal.Binary64

/-! # TOML values

A document is a table whose entries stand in the order in which their keys first appear.
-/
namespace Graft.Toml

inductive Value
  | string (text : String)
  | integer (n : Int)
  | float (x : Decimal.Binary64)
  | boolean (b : Bool)
  | datetime (text : String)
  | array (items : List Value)
  | table (entries : List (String × Value))

abbrev Entries := List (String × Value)

end Graft.Toml

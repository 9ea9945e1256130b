set_option autoImplicit false

/-! # Text within text -/

namespace Pipework.Text

/-- `needle` stands somewhere in a text; the empty one stands everywhere. -/
def occursIn (needle : List Char) : List Char → Bool
  | [] => needle.isEmpty
  | c :: rest => needle.isPrefixOf (c :: rest) || occursIn needle rest

end Pipework.Text

/-! JSON values. Objects keep their members in the order of the text, repeated keys included;
numbers keep their spelling. -/
namespace RouteTree.Json

inductive Value
  | null
  | bool (b : Bool)
  | number (spelling : String)
  | string (s : String)
  | array (items : List Value)
  | object (members : List (String × Value))
  deriving Repr, Inhabited

def Value.string? : Value → Option String
  | .string s => some s
  | _ => none

end RouteTree.Json

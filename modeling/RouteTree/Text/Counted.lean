/-! Counts with their noun. -/
namespace RouteTree.Text

/-- The count and the noun, which takes an `s` unless the count is one. -/
def counted (n : Nat) (noun : String) : String :=
  toString n ++ " " ++ noun ++ (if n = 1 then "" else "s")

end RouteTree.Text

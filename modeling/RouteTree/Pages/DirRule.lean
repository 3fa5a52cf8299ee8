import RouteTree.Text.Pieces

/-! What the names in a pages tree mean. -/
namespace RouteTree.Pages

/-- Names of page files, one for each rendering back-end. -/
def pageFiles : List String :=
  ["+Page.tsx", "+Page.jsx", "+Page.ts", "+Page.js", "+Page.vue", "+Page.md", "+Page.mdx"]

def isPageFile (name : String) : Bool := pageFiles.contains name

/-- What a directory adds to the paths of the pages below it. -/
inductive DirRule
  /-- It is not entered. -/
  | skip
  /-- It is entered and adds nothing. -/
  | transparent
  /-- It is entered and adds its name. -/
  | segment (name : String)
  deriving DecidableEq, Repr

/-- A name in parentheses groups layouts. -/
def isLayoutGroup (name : String) : Bool :=
  2 ≤ name.length && Text.startsWith "(" name && Text.endsWith ")" name

def DirRule.classify (name : String) : DirRule :=
  if isLayoutGroup name || name = "_error" || name = "node_modules" || Text.startsWith "." name then
    .skip
  else if name = "index" then .transparent
  else .segment name

end RouteTree.Pages

import RouteTree.Route.Table

/-! Routes in the notation of a host router, in which a star after the last slash takes all that is
left of a URL. -/
namespace RouteTree

/-- The route that a host route string means. -/
def RawRoute.ofHost (route : String) : RawRoute :=
  match Text.stripEnd? "/*" route with
  | some "" => ⟨"/", true⟩
  | some base => ⟨base, true⟩
  | none => ⟨route, false⟩

end RouteTree

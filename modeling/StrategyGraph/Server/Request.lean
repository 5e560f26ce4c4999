import StrategyGraph.Json.Basic

/-!
# Requests

A request has a method, a path, and maybe a body with the name of its type. What they mean, the
server leaves to the web framework that it runs on.
-/

namespace StrategyGraph.Server

/-- What comes over the wire. -/
structure Request where
  /-- The method, in upper case. -/
  method : String
  /-- The path. -/
  path : String
  /-- The type of the body. -/
  contentType : Option String := none
  /-- The body. -/
  body : String := ""

/-- The web framework under the server. -/
structure Framework where
  /-- The segments of a path, in which whatever is escaped or does not count is made out. -/
  segments : String → List String
  /-- The body of a request as a JSON value; `null` when it is of another type or cannot be read. A
  value holds texts of characters: where the body has a lone surrogate, the text has
  `Json.loneSurrogate` in its place. -/
  json : Request → Json

/-- What goes back. -/
structure Response where
  /-- The status code. -/
  status : Nat
  /-- The body, if it is JSON. -/
  body : Option Json := none

namespace Response

/-- A response with a JSON body. -/
def ofJson (status : Nat) (body : Json) : Response := { status, body := some body }

/-- A response that names an error. -/
def error (status : Nat) (text : String) : Response :=
  ofJson status (.object [("error", .string text)])

end Response

end StrategyGraph.Server

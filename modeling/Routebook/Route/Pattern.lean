/-
  Routebook.Route.Pattern

  Patterns: a declared path with one slash in front, none at the end, without
  the extension of its last part and without a last part `index`.
-/

namespace Routebook.Route

/-- A slash. -/
def isSlash (c : Char) : Bool := c == '/'

/-- The characters without slashes at the end. -/
def trimEnd (cs : List Char) : List Char := (cs.reverse.dropWhile isSlash).reverse

/-- The characters without slashes at either end. -/
def trimSlashes (cs : List Char) : List Char := trimEnd (cs.dropWhile isSlash)

/-- The last part of a path: what follows its last slash. -/
def lastPart (cs : List Char) : List Char := (cs.reverse.takeWhile fun c => !isSlash c).reverse

/-- What stands before the last part, without the slashes between. -/
def beforeLastPart (cs : List Char) : List Char :=
  ((cs.reverse.dropWhile fun c => !isSlash c).dropWhile isSlash).reverse

/-- A file name without its extension: cut at the last dot, unless only dots
stand before that one. -/
def stem (cs : List Char) : List Char :=
  match cs.reverse.dropWhile fun c => c != '.' with
  | [] => cs
  | _ :: before => if before.all fun c => c == '.' then cs else before.reverse

/-- The pattern of a declared path. -/
def patternChars (path : List Char) : List Char :=
  let body := trimSlashes path
  if body = [] then ['/']
  else
    let base := beforeLastPart body
    let name := stem (lastPart body)
    if name = "index".toList then '/' :: base
    else if base = [] then '/' :: name
    else '/' :: (base ++ '/' :: name)

/-- The pattern of a declared path. -/
def patternOf (path : String) : String := String.ofList (patternChars path.toList)

end Routebook.Route

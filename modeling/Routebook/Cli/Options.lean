/-
  Routebook.Cli.Options

  Options among the words of a command line.  A long option takes its value
  after `=` or as the next word; short ones may be written together, and the
  last of them may have its value attached.
-/

namespace Routebook.Cli

/-- An option that a command knows. -/
structure Known where
  /-- Its name, with the dashes before it. -/
  name : String
  /-- The letter that may stand for it. -/
  letter : Option Char
  /-- What its value is called, if it takes one. -/
  value : Option String
  about : String

namespace Known

/-- An option that takes a value. -/
def taking (name value about : String) : Known := ⟨name, none, some value, about⟩

/-- An option that is given or not. -/
def flag (name about : String) : Known := ⟨name, none, none, about⟩

/-- The same option with a letter that may stand for it. -/
def lettered (letter : Char) (k : Known) : Known := { k with letter := some letter }

end Known

/-- The options that were given, the latest first, with their values; one that
takes none has the empty value. -/
abbrev Given := List (String × String)

/-- The value of an option, if it was given; of several the last. -/
def Given.get? (name : String) (g : Given) : Option String :=
  (g.find? fun e => e.1 == name).map Prod.snd

/-- Whether an option was given. -/
def Given.has (name : String) (g : Given) : Bool := (g.get? name).isSome

/-- What a word with options gives. -/
inductive Reading where
  /-- Options that are complete. -/
  | complete (given : Given)
  /-- Options of which the last wants the next word as its value. -/
  | wanting (given : Given) (name : String)
  /-- No options that are known. -/
  | unknown

/-- Whether a word gives options. -/
def isOption (word : String) : Bool := word.startsWith "-" && word != "-"

/-- A long option, perhaps with its value after `=`; none if no such option is known. -/
def longOption (known : List Known) (word : String) : Option Reading :=
  let name := (word.takeWhile (· != '=')).toString
  (known.find? fun k => k.name == name).map fun k =>
    let attached := (word.toList.drop name.length).tail
    let isAttached := decide (name.length < word.length)
    if k.value.isSome then
      if isAttached then .complete [(name, String.ofList attached)] else .wanting [] name
    else if isAttached then .unknown
    else .complete [(name, "")]

/-- Options that are given by their letters. -/
def letters (known : List Known) (given : Given) : List Char → Reading
  | [] => .complete given
  | c :: rest =>
    match known.find? fun k => k.letter == some c with
    | none => .unknown
    | some k =>
      if k.value.isSome then
        if rest.isEmpty then .wanting given k.name
        else .complete ((k.name, String.ofList rest) :: given)
      else letters known ((k.name, "") :: given) rest

/-- The options of a word. -/
def optionsOf (known : List Known) (word : String) : Reading :=
  match longOption known word with
  | some r => r
  | none => if word.startsWith "--" then .unknown else letters known [] (word.toList.drop 1)

/-- Tell options from other words.  Options end at `--`, or, unless they may be
mixed with other words, at the first of those.  Nothing if an option is unknown,
lacks its value or has one that it does not take. -/
def readOptions (known : List Known) (mixed : Bool) :
    Given → List String → Option (Given × List String)
  | given, [] => some (given, [])
  | given, word :: rest =>
    if word = "--" then some (given, rest)
    else if isOption word then
      match optionsOf known word with
      | .unknown => none
      | .complete more => readOptions known mixed (more ++ given) rest
      | .wanting more name =>
        match rest with
        | [] => none
        | value :: rest => readOptions known mixed ((name, value) :: more ++ given) rest
    else if mixed then
      (readOptions known mixed given rest).map fun r => (r.1, word :: r.2)
    else some (given, word :: rest)

end Routebook.Cli

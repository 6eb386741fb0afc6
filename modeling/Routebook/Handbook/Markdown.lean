/-
  Routebook.Handbook.Markdown

  The handbook of merged groups.  Groups and actions whose names contain the
  marker of generated code are left out; a group is written only when it has
  a description, auth tags or a method that is written.
-/
import Routebook.Handbook.Content
import Routebook.Handbook.ParamTable
import Routebook.Model.Basic

namespace Routebook.Handbook

/-- What the writing of a handbook depends on besides the groups. -/
structure Frame where
  /-- The marker of generated code; an empty one marks nothing. -/
  marker : String
  /-- The files that descriptions refer to. -/
  files : References

/-- Whether a text occurs inside another one. -/
def occursIn (part : List Char) : List Char → Bool
  | [] => part.isEmpty
  | c :: cs => part.isPrefixOf (c :: cs) || occursIn part cs

/-- Whether a name is marked as generated. -/
def skipped (marker name : String) : Bool :=
  marker != "" && occursIn marker.toList name.toList

/-! ## Tags of a method -/

/-- The first action of a bag. -/
def action? (bag : Bag) : Option Api :=
  match Bag.first? bag "Api" with
  | some (.api a) => some a
  | _ => none

/-- The verbs of a bag, if they are restricted. -/
def verbs? (bag : Bag) : Option (List Verb) :=
  match Bag.first? bag "Method" with
  | some (.method allow) => some allow
  | _ => none

/-- The parameters of a kind in a bag. -/
def params (bag : Bag) (kind : String) : List Param :=
  (Bag.tags bag kind).filterMap fun t =>
    match t with
    | .param _ p => some p
    | _ => none

/-- The descriptions of a kind in a bag. -/
def descriptions (bag : Bag) (kind : String) : List Description :=
  (Bag.tags bag kind).filterMap fun t =>
    match t with
    | .description _ d => some d
    | _ => none

/-! ## Sections of a method -/

/-- A titled table of parameters; nothing if there are none. -/
def paramSection (style title : String) (ps : List Param) : String :=
  if ps.isEmpty then ""
  else "<h4 class='" ++ style ++ "'>" ++ title ++ "</h4>" ++ blockEnd ++ paramTable ps

/-- One example under its number. -/
def exampleBlock (style title : String) (number : Nat) (text : String) : String :=
  "<h5 class='" ++ style ++ "'>" ++ title ++ " " ++ toString number ++ "</h5>" ++ blockEnd ++
    "```\n" ++ text ++ "\n```" ++ blockEnd

/-- The examples that have a text, numbered in order. -/
def exampleBlocks (files : References) (style title : String) :
    Nat → List Description → Outcome String
  | _, [] => return ""
  | number, d :: rest => do
    let text ← describe files d
    -- An example without a text takes no number.
    if text = "" then exampleBlocks files style title number rest
    else do
      let more ← exampleBlocks files style title (number + 1) rest
      return exampleBlock style title number text ++ more

/-- A titled list of examples; nothing if none is declared. -/
def exampleSection (files : References) (style title : String) (ds : List Description) :
    Outcome String :=
  if ds.isEmpty then return ""
  else do
    -- The title stands even if none of the examples has a text.
    let blocks ← exampleBlocks files style title 1 ds
    return "<h4 class='" ++ style ++ "'>" ++ title ++ "</h4>" ++ blockEnd ++ blocks

/-- The description of a method: its own tag, else the one of the action. -/
def methodDescription (files : References) (bag : Bag) (a : Api) : Outcome String :=
  match Bag.first? bag "ApiDescription" with
  | some (.description _ d) => describe files d
  | _ => return a.description

/-- The heading of a method. -/
def methodHeading (group : String) (a : Api) : String :=
  let sign := if a.deprecated then "<sup class='deprecated'>Deprecated</sup>" else ""
  "<h2 class='api-method " ++ group ++ "' id='" ++ group ++ "-" ++ a.name ++ "'>" ++ a.name ++
    sign ++ "</h2>" ++ blockEnd

/-- The verbs that a method answers to. -/
def verbLine (bag : Bag) : String :=
  let verbs :=
    match verbs? bag with
    | some allow => ",".intercalate (allow.map Verb.name)
    | none => "unrestricted"
  "<h4 class='request-method'>Method:<span class='h4-span'>" ++ verbs ++ "</span></h4>" ++ blockEnd

/-- The path of a method. -/
def pathLine (a : Api) : String :=
  "<h4 class='request-path'>Path:<span class='h4-span'>" ++ a.path ++ "</span></h4>" ++ blockEnd

/-- The section of an action. -/
def actionSection (files : References) (group : String) (bag : Bag) (a : Api) :
    Outcome String := do
  -- All that may fail comes first, in the order of the page.
  let description ← methodDescription files bag a
  let requests ←
    exampleSection files "request-example" "Request Example" (descriptions bag "ApiRequestExample")
  let successes ←
    exampleSection files "api-success-example" "Success Response Example"
      (descriptions bag "ApiSuccess")
  let failures ←
    exampleSection files "api-fail-example" "Failure Response Example" (descriptions bag "ApiFail")
  return methodHeading group a ++
    "<h4 class='method-description'>Description</h4>" ++ blockEnd ++
    description ++ blockEnd ++
    "<h3 class='request-part'>Request</h3>" ++ blockEnd ++
    verbLine bag ++ pathLine a ++
    paramSection "auth-params" "Auth Fields" (params bag "ApiAuth") ++
    paramSection "request-params" "Request Fields" (params bag "Param") ++
    requests ++
    "<h3 class='response-part'>Response</h3>" ++ blockEnd ++
    paramSection "response-params" "Success Response Fields" (params bag "ApiSuccessParam") ++
    successes ++
    paramSection "response-params" "Failure Response Fields" (params bag "ApiFailParam") ++
    failures

/-- The section of a method; nothing if it is no action or a generated one. -/
def methodSection (frame : Frame) (group : String) (m : MethodModel) : Outcome String :=
  match action? m.bag with
  | none => return ""
  | some a =>
    if skipped frame.marker a.name then return ""
    else actionSection frame.files group m.bag a

/-! ## Groups -/

/-- The heading of a group. -/
def groupHeading (name : String) : String :=
  "<h1 class='group-title' id='" ++ name ++ "'>" ++ name ++ "</h1>" ++ blockEnd

/-- The description of a group, if it declares one. -/
def groupDescription (files : References) : Option Description → Outcome String
  | none => return ""
  | some d => do
    let text ← describe files d
    return "<h3 class='group-description'>Group Description</h3>" ++ blockEnd ++
      orElse text "No description" ++ blockEnd

/-- The auth tags of a group, if there are some. -/
def groupAuth (auth : Entries Param) : String :=
  if auth.isEmpty then ""
  else "<h3 class='group-auth'>Group Auth</h3>" ++ blockEnd ++ paramTable (Entries.values auth)

/-- The section of a group; nothing if the group has nothing to show. -/
def groupSection (frame : Frame) (g : MergedGroup MethodModel) : Outcome String := do
  let description ← groupDescription frame.files g.description
  let sections ← g.methods.mapM (methodSection frame g.name)
  let methods := String.join sections
  -- A description counts by being there, whatever its text.
  if g.description.isNone && g.auth.isEmpty && methods = "" then return ""
  return groupHeading g.name ++ description ++ groupAuth g.auth ++
    "<hr class='group-hr'/>" ++ blockEnd ++ methods ++ "<hr class='method-hr'/>" ++ blockEnd

/-- The handbook of all groups whose keys are not marked. -/
def markdown (frame : Frame) (groups : Entries (MergedGroup MethodModel)) : Outcome String := do
  let kept := groups.filter fun e => !skipped frame.marker e.1
  let sections ← kept.mapM fun e => groupSection frame e.2
  return String.join sections

end Routebook.Handbook

/-
  Routebook.Model.Report

  Merged groups as a report in JSON.  Free values in it are finite; the time
  limit of a circuit breaker is written as it is.
-/
import Routebook.Json.Printer
import Routebook.Model.Encode

namespace Routebook

/-- A description with a finite value. -/
def Description.finiteOnly (d : Description) : Description :=
  { d with value := d.value.finiteOnly }

/-- A parameter with finite free values. -/
def Param.finiteOnly (p : Param) : Param :=
  { p with default := p.default.finiteOnly, rules := Entries.mapValues Value.finiteOnly p.rules }

/-- A tag with finite free values. -/
def Tag.finiteOnly : Tag → Tag
  | .description k d => .description k d.finiteOnly
  | .param k p => .param k p.finiteOnly
  | t => t

namespace Model

/-- A group info with finite free values. -/
def GroupInfo.finiteOnly (g : GroupInfo) : GroupInfo :=
  { g with
    description := g.description.map Description.finiteOnly
    auth := Entries.mapValues Param.finiteOnly g.auth }

/-- A method with finite free values. -/
def MethodModel.finiteOnly (m : MethodModel) : MethodModel :=
  { m with
    bag := Entries.mapValues (fun tags => tags.map Tag.finiteOnly) m.bag
    group := GroupInfo.finiteOnly m.group }

/-- A merged group with finite free values. -/
def MergedGroup.finiteOnly (g : MergedGroup MethodModel) : MergedGroup MethodModel :=
  { g with
    description := g.description.map Description.finiteOnly
    auth := Entries.mapValues Param.finiteOnly g.auth
    methods := g.methods.map MethodModel.finiteOnly }

/-- The report of merged groups. -/
def report (groups : Entries (MergedGroup MethodModel)) : String :=
  Json.print .report
    (.object (Entries.mapValues (fun g => mergedData (MergedGroup.finiteOnly g)) groups))

end Model

end Routebook

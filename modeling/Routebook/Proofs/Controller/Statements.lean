/-
  Routebook.Proofs.Controller.Statements

  What class statements keep.  The body of a class grows by one statement after
  the other: a statement binds a name, makes a class and binds its name, or
  says of what type a name is.  What each of these steps keeps of a body
  (`ClassInvariant`), a whole class statement keeps of the classes made so far,
  the classes in its body among them (`ClassInvariant.make`).
-/
import Routebook.Controller.Define
import Routebook.Proofs.Outcome

namespace Routebook

open Outcome

/-- What a statement in the body of a class may bind a name to, classes in the
body apart. -/
inductive Bindable (s : Surroundings) (body : Body) : Binding → Prop
  | function {layers : List (List TagSpec)} {tags : List Attached}
      (h : TagSpec.written layers = .ok tags) : Bindable s body (.function tags)
  | wrapped {layers : List (List TagSpec)} {tags : List Attached}
      (h : TagSpec.written layers = .ok tags) : Bindable s body (.wrapped tags)
  | property {layers : List (List TagSpec)} {tags : List Attached}
      (h : TagSpec.written layers = .ok tags) : Bindable s body (.property tags)
  | getterless : Bindable s body (.property [])
  | other : Bindable s body .other
  | same {name : String} {b : Binding} (h : lookup? [body.bindings, s.globals] name = some b) :
      Bindable s body b

/-- A property of the classes made so far and a property of bodies that are
running, which the steps of class statements keep. -/
structure ClassInvariant (s : Surroundings) (worlds : World → Prop) (bodies : Body → Prop) :
    Prop where
  start : ∀ world, worlds world → bodies ⟨world, [], []⟩
  world : ∀ body, bodies body → worlds body.world
  bind : ∀ body name b, bodies body → Bindable s body b → bodies (body.bind name b)
  nest : ∀ body world name id, bodies body → worlds world →
    bodies ({ body with world := world }.bind name (.controller id))
  annotate : ∀ body name hint hinted, bodies body →
    Hint.settle hint s body.world body.bindings = .ok hinted →
    bodies { body with hints := Entries.put name hinted body.hints }
  made : ∀ body layers tags module path ancestors, bodies body →
    TagSpec.written layers = .ok tags →
    worlds (body.world ++ [⟨module, path, tags, ancestors, body.bindings, body.hints⟩])

namespace ClassInvariant

variable {s : Surroundings} {worlds : World → Prop} {bodies : Body → Prop}

mutual
/-- One statement in the body of a class. -/
theorem run (hkeeps : ClassInvariant s worlds bodies) {path : String} {body body' : Body}
    (hbody : bodies body) : ∀ m : Member, m.run s path body = .ok body' → bodies body'
  | .function name layers => by
      intro h
      obtain ⟨tags, htags, rfl⟩ := map_ok_iff.mp h
      exact hkeeps.bind body name _ hbody (.function htags)
  | .wrapped name layers => by
      intro h
      obtain ⟨tags, htags, rfl⟩ := map_ok_iff.mp h
      exact hkeeps.bind body name _ hbody (.wrapped htags)
  | .property name layers => by
      intro h
      obtain ⟨tags, htags, rfl⟩ := map_ok_iff.mp h
      exact hkeeps.bind body name _ hbody (.property htags)
  | .getterless name none => by
      intro h
      obtain rfl := Except.ok.inj h
      exact hkeeps.bind body name _ hbody .getterless
  | .getterless name (some spec) => by
      intro h
      obtain ⟨_, -, h⟩ := bind_ok_iff.mp h
      exact absurd h (by simp)
  | .value name => by
      intro h
      obtain rfl := Except.ok.inj h
      exact hkeeps.bind body name _ hbody .other
  | .same name other => by
      intro h
      unfold Member.run at h
      split at h
      · rename_i b hb
        obtain rfl := Except.ok.inj h
        exact hkeeps.bind body name b hbody (.same hb)
      · exact absurd h (by simp)
  | .nested decl => by
      intro h
      obtain ⟨⟨world, id⟩, hmade, h⟩ := bind_ok_iff.mp h
      obtain rfl := Except.ok.inj h
      have hworld : worlds world := hkeeps.make (hkeeps.world body hbody) decl hmade
      exact hkeeps.nest body world decl.name id hbody hworld
  | .annotated name hint assigned => by
      intro h
      obtain ⟨hinted, hsettle, h⟩ := bind_ok_iff.mp h
      obtain rfl := Except.ok.inj h
      -- An annotation that assigns binds its name before its hint is looked at.
      have hbound : bodies (if assigned then body.bind name .other else body) := by
        split
        · exact hkeeps.bind body name _ hbody .other
        · exact hbody
      exact hkeeps.annotate _ name hint hinted hbound hsettle

/-- All statements in the body of a class. -/
theorem runAll (hkeeps : ClassInvariant s worlds bodies) {path : String} {body body' : Body}
    (hbody : bodies body) :
    ∀ ms : List Member, Member.runAll s path body ms = .ok body' → bodies body'
  | [] => by
      intro h
      exact Except.ok.inj h ▸ hbody
  | m :: rest => by
      intro h
      obtain ⟨body₁, hrun, h⟩ := bind_ok_iff.mp h
      exact hkeeps.runAll (hkeeps.run hbody m hrun) rest h

/-- A class statement. -/
theorem make (hkeeps : ClassInvariant s worlds bodies) {lead : String} {around : Entries Binding}
    {world world' : World} {id : ClassId} (hworld : worlds world) :
    ∀ decl : ClassDecl, decl.make s lead around world = .ok (world', id) → worlds world'
  | .mk name bases layers members => by
      intro h
      obtain ⟨tags, htags, h⟩ := bind_ok_iff.mp h
      obtain ⟨_, -, h⟩ := bind_ok_iff.mp h
      obtain ⟨body, hrun, h⟩ := bind_ok_iff.mp h
      obtain ⟨ancestors, -, h⟩ := bind_ok_iff.mp h
      obtain ⟨rfl, -⟩ := Prod.mk.inj (Except.ok.inj h)
      have hbody : bodies body := hkeeps.runAll (hkeeps.start world hworld) members hrun
      exact hkeeps.made body layers tags _ _ ancestors hbody htags
end

end ClassInvariant
end Routebook

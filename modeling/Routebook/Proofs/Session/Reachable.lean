/-
  Routebook.Proofs.Session.Reachable

  What holds of all models of a session, whatever is done in it: modules are
  loaded, classes collected and scanned, models merged, kept and looked up,
  in any order, and some of it fails.  All models are sound then, and of
  sound models the groups do not depend on the default group, since no method
  and no class asks for it (`sound_of_reaches`).
-/
import Routebook.Proofs.Session.Soundness

namespace Routebook

namespace Session

open Steps

/-! ## Runs -/

/-- What may be done with a session. -/
inductive Step where
  | define (name : String) (p : Program) (registered : Bool)
  | collect (c : FoundClass) (publicOnly : Bool)
  | scan (path : String) (merging : Bool)
  | merge (default : String) (ids : List ModelId)
  | keep (key : String) (id : ModelId)
  | get (key : String)

/-- A step as part of a run. -/
def Step.run : Step → Run Unit
  | .define name p registered => discard (load (Import.define name p registered))
  | .collect c publicOnly => discard (Session.collect c publicOnly)
  | .scan path merging => discard (Session.scan path merging)
  | .merge default ids => discard (mergeWith default ids)
  | .keep key id => Session.keep key id
  | .get key => discard (cached key)

/-- The models that a step is given. -/
def Step.given : Step → List ModelId
  | .merge _ ids => ids
  | .keep _ id => [id]
  | _ => []

/-- Sessions that are reached from one by steps, whether these fail or not.  A
step may be given any models that were made before. -/
inductive Reaches (s₀ : Session) : Session → Prop where
  | start : Reaches s₀ s₀
  | step {s : Session} (h : Reaches s₀ s) (step : Step)
      (hgiven : ∀ id ∈ step.given, id < s.heap.models.length) : Reaches s₀ (exec step.run s).2

/-- A step that is given models of a sound session leaves a sound one. -/
theorem Step.keeps (step : Step) :
    Keeps Sound (Has step.given) (fun _ => Has []) step.run := by
  have hnone {ids : List ModelId} (s : Session) (h : s.Has ids) : s.Has [] :=
    h.mono (List.nil_subset ids)
  cases step with
  | define name p registered =>
      have hdefine (t : Tree) := Import.same_define (Tree.LooksLike.refl t) name p registered
      exact keeps_discard (keeps_load hdefine) fun _ s h => hnone s h
  | collect c publicOnly =>
      exact keeps_discard (keeps_collect c publicOnly) fun _ s h => hnone s h
  | scan path merging =>
      exact keeps_discard (keeps_scan path merging) fun _ s h => hnone s h
  | merge default ids =>
      exact keeps_discard (keeps_mergeWith default ids) fun _ s h => hnone s h
  | keep key id =>
      exact keeps_mono (keeps_keep key List.mem_cons_self) (fun _ h => h) fun _ s h => hnone s h
  | get key =>
      exact keeps_discard (keeps_cached key) fun _ s h => hnone s h

theorem sound_of_ends {r : Outcome α × Session} {Q : α → Session → Prop} (h : Ends Sound Q r)
    (hQ : ∀ a s, Q a s → s.Sound) : r.2.Sound := by
  rcases r with ⟨e | a, s⟩
  · exact h
  · exact hQ a s h

theorem Sound.of_reaches {s₀ s : Session} (h₀ : s₀.Sound) (h : Reaches s₀ s) : s.Sound := by
  induction h with
  | start => exact h₀
  | step _ step hgiven ih =>
      exact sound_of_ends (step.keeps _ ⟨ih, hgiven⟩) fun _ _ h => h.sound

theorem sound_start {t : Tree} (outside : Outside) (paths : List Place) {settings : Settings}
    (base : Option Path) (hempty : (Cache.ofSettings settings).IsEmpty t) :
    (start (Modules.start t outside paths) settings base).Sound :=
  ⟨Modules.valid_start t outside paths, Heap.sound_empty, hempty.sound _⟩

theorem Sound.of_kept {s : Session} (h : s.Sound) {key : String} {c : ClassModel MethodModel}
    (hkept : s.kept key = .ok (some c)) : c.Sound := by
  unfold kept at hkept
  cases hcache : s.cache with
  | memory items =>
      rw [hcache] at hkept
      obtain ⟨id, hid, rfl⟩ := Option.map_eq_some_iff.mp (Except.ok.inj hkept)
      exact h.heap id ((h.items hcache).of_get? hid)
  | directory d =>
      rw [hcache] at hkept
      exact Cache.sound_of_load (h.holds hcache) hkept

/-- Whatever was done in a session that began with an empty cache: every model
that was made is sound, and so is every model that is kept; merged groups and
their auth tags stand under their own names; and the groups of models do not
depend on the default group. -/
theorem sound_of_reaches {t : Tree} {outside : Outside} {paths : List Place} {settings : Settings}
    {base : Option Path} {s : Session} (hempty : (Cache.ofSettings settings).IsEmpty t)
    (h : Reaches (start (Modules.start t outside paths) settings base) s) :
    (∀ id < s.heap.models.length, (s.heap.model id).Sound) ∧
    (∀ key c, s.kept key = .ok (some c) → c.Sound) ∧
    ∀ default ids,
      Entries.Each MergedGroup.Sound
        (Entries.mapValues (s.heap.merge default ids).1.merged (s.heap.merge default ids).2) ∧
      ((∀ id ∈ ids, id < s.heap.models.length) →
        ∀ default', s.heap.merge default' ids = s.heap.merge default ids) := by
  have hsound := (sound_start outside paths base hempty).of_reaches h
  refine ⟨hsound.heap, fun key c => hsound.of_kept, fun default ids => ⟨?_, fun hids => ?_⟩⟩
  · exact Heap.sound_groups s.heap default ids
  · exact Heap.merge_congr_default hsound.heap hids default

/-- A controller with a method in a group of its own, and a directory to keep it in. -/
def orderTree : Tree :=
  let orders : ClassDecl :=
    .mk "Orders" [] [[.make "ApiGroup" [("group_name", .string "orders")],
        .make "ApiGroupAuth" [("name", .string "token")]]]
      [.function "show" [], .function "list" [[.make "ApiGroup" [("group_name", .string "lists")]]]]
  ⟨[], [(["cache"], .directory), (["orders.py"], .file (.program ⟨[.define orders true], false⟩))]⟩

/-- A session that keeps controllers in that directory. -/
def orderSession : Session :=
  start (Modules.start orderTree .nowhere [[]])
    { Settings.default with cacheDirectory := some ⟨.here, ["cache"]⟩ } none

/-- The session after the controller was scanned. -/
def orderScanned : Session := (exec (Step.scan "orders.py" true).run orderSession).2

theorem sound_of_reaches_orderScanned :
    (Cache.directory ⟨.here, ["cache"]⟩).IsEmpty orderTree ∧ Reaches orderSession orderScanned ∧
      orderScanned.heap.models.length = 1 ∧ (orderScanned.heap.model 0).Sound ∧
      orderScanned.heap.merge "other" [0] = orderScanned.heap.merge "default" [0] := by
  have hempty : (Cache.directory ⟨.here, ["cache"]⟩).IsEmpty orderTree := by
    intro key
    have hplace : orderTree.resolve (Path.child ⟨.here, ["cache"]⟩ (Cache.fileName key))
        = ["cache", Cache.fileName key] := by
      rw [Tree.resolve_child _ _ (Cache.plainName_fileName key).notUp]
      rfl
    rw [hplace]
    rfl
  have hscanned : Reaches orderSession orderScanned :=
    Reaches.start.step (.scan "orders.py" true) (fun _ hid => absurd hid List.not_mem_nil)
  have hmade : orderScanned.heap.models.length = 1 := by decide +kernel
  have hids : ∀ id ∈ [0], id < orderScanned.heap.models.length := by
    rw [hmade]
    decide
  have hstart : (Cache.ofSettings
      { Settings.default with cacheDirectory := some ⟨.here, ["cache"]⟩ }).IsEmpty orderTree :=
    hempty
  obtain ⟨hmodels, -, hgroups⟩ := sound_of_reaches hstart hscanned
  exact ⟨hempty, hscanned, hmade, hmodels 0 (hids 0 List.mem_cons_self),
    (hgroups "default" [0]).2 hids "other"⟩

end Session
end Routebook

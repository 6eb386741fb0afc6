/-
  Routebook.Proofs.Session.Collecting

  Collecting one class of which nothing is kept.  The model is made from the
  tags of the class and its methods and is then kept, where a cache is asked
  for; only a directory can refuse it (`exec_collectNew_of_model`).  So what is
  answered follows the rules by which groups are resolved (`collect_resolved`).
-/
import Routebook.Proofs.Controller.Resolution
import Routebook.Proofs.Session.Heap
import Routebook.Proofs.Session.Steps

namespace Routebook

namespace Session

open Steps

/-- A cache is asked for, and it is a directory that refuses a model. -/
def Refuses (s : Session) (key : String) (m : ClassModel MethodModel) (e : Failure) : Prop :=
  s.settings.cache = true ∧
    ∃ d t, s.cache = .directory d ∧ Cache.store s.tree d key m = .error (t, e)

/-- Keeping a model leaves all models as they are, and only a directory can refuse it. -/
theorem exec_remember_cases (s : Session) (key : String) (id : ModelId) :
    ∃ s', s'.heap = s.heap ∧
      (exec (remember key id) s = (.ok ⟨⟩, s') ∨
        ∃ e, exec (remember key id) s = (.error e, s') ∧ s.Refuses key (s.heap.model id) e) := by
  rw [exec_remember]
  cases hcaching : s.settings.cache with
  | false => exact ⟨s, rfl, .inl rfl⟩
  | true =>
      rw [if_pos rfl]
      cases hcache : s.cache with
      | memory items =>
          refine ⟨_, ?_, .inl (exec_keep_memory key id hcache)⟩
          rfl
      | directory d =>
          have hkeep := exec_keep_directory key id hcache
          rw [exec_change] at hkeep
          -- Stored or not, the files may have changed by then, but no model has.
          cases hstore : Cache.store s.tree d key (s.heap.model id) with
          | ok t =>
              rw [hstore] at hkeep
              refine ⟨_, ?_, .inl hkeep⟩
              rfl
          | error failed =>
              rw [hstore] at hkeep
              refine ⟨_, ?_, .inr ⟨failed.2, hkeep, hcaching, d, failed.1, hcache, hstore⟩⟩
              rfl

section Collect

variable {s : Session} {c : FoundClass} {publicOnly : Bool}

/-- A model that is made is the newest one, and it is answered unless it is refused. -/
theorem exec_collectNew_of_model {m : ClassModel MethodModel}
    (hmodel : s.reflectModel c publicOnly = .ok m) :
    ∃ s', s'.heap = (s.heap.add m).1 ∧
      (exec (collectNew c publicOnly) s = (.ok s.heap.models.length, s') ∨
        ∃ e, exec (collectNew c publicOnly) s = (.error e, s') ∧ s.Refuses (s.keyOf c) m e) := by
  rw [exec_collectNew, hmodel]
  obtain ⟨s', hheap, hok | ⟨e, herror, hrefused⟩⟩ :=
    exec_remember_cases { s with heap := (s.heap.add m).1 } (s.keyOf c) s.heap.models.length
  · exact ⟨s', hheap, .inl (exec_bind_of_ok hok)⟩
  · refine ⟨s', hheap, .inr ⟨e, exec_bind_of_error herror, ?_⟩⟩
    rwa [Heap.model_add_self] at hrefused

/-- The tags of the methods that are reported of a class. -/
def reflected (s : Session) (c : FoundClass) (publicOnly : Bool) : Entries (List Tag) :=
  Entries.mapValues Collect.tagsOf (Entries.ofPairs (Reflect.methods publicOnly (s.ownersOf c)))

/-- A class of which nothing is kept is collected by the rules: unless its properties
cannot be evaluated, there is a model that follows them, and it is answered or cannot
be stored. -/
theorem collect_resolved (hdefault : s.settings.defaultGroup ≠ "")
    (hmiss : exec (recalled (s.keyOf c)) s = (.ok none, s)) (publicOnly : Bool) :
    (∃ e, Reflect.properties publicOnly (s.ownersOf c) = .error e ∧
      exec (collect c publicOnly) s = (.error e, s)) ∨
    ∃ s', (Resolved s.settings.defaultGroup (Collect.tagsOf (s.tagsOf c))
        (s.reflected c publicOnly) (s'.heap.model s.heap.models.length)) ∧
      (exec (collect c publicOnly) s = (.ok s.heap.models.length, s') ∨
        ∃ e, exec (collect c publicOnly) s = (.error e, s') ∧
          s.Refuses (s.keyOf c) (s'.heap.model s.heap.models.length) e) := by
  have hcollect : exec (collect c publicOnly) s = exec (collectNew c publicOnly) s := by
    rw [exec_collect, hmiss]
  rw [hcollect]
  -- Only the properties can fail, and they are evaluated before anything is kept.
  obtain ⟨home, -, hmodel⟩ := Collect.model_eq hdefault (s.keyOf c) (s.tagsOf c) (s.ownersOf c)
    publicOnly
  cases hproperties : Reflect.properties publicOnly (s.ownersOf c) with
  | error e =>
      rw [hproperties] at hmodel
      have hreflect : s.reflectModel c publicOnly = .error e := hmodel
      exact .inl ⟨e, rfl, by rw [exec_collectNew, hreflect]⟩
  | ok properties =>
      rw [hproperties] at hmodel
      obtain ⟨m, hreflect⟩ : ∃ m, s.reflectModel c publicOnly = .ok m := ⟨_, hmodel⟩
      obtain ⟨s', hheap, hdone⟩ := exec_collectNew_of_model hreflect
      have hmade : s'.heap.model s.heap.models.length = m := by
        rw [hheap, Heap.model_add_self]
      refine .inr ⟨s', ?_, ?_⟩
      · rw [hmade]
        exact Collect.resolved_model hdefault hreflect
      · rw [hmade]
        exact hdone

end Collect

/-- A parameter that authorizes. -/
def authParam (name type : String) : Param := ⟨name, [], type, "", .null, false, []⟩

/-- A controller of two groups, of which the first one counts, with two tags of one name;
one method names the group itself and gives it a description, and one lies elsewhere. -/
def homeController : Controller :=
  ⟨"m", "A",
    [.tag (.group ⟨"home"⟩), .tag (.group ⟨"other"⟩),
      .tag (.param .groupAuth (authParam "tok" "a")),
      .tag (.param .groupAuth (authParam "key" "b")),
      .tag (.param .groupAuth (authParam "tok" "c"))],
    [],
    [("inside", .function [.tag (.group ⟨"home"⟩),
        .tag (.description .groupDescription ⟨.string "lost", .text⟩),
        .tag (.param .groupAuth (authParam "key" "d")), .tag (.method [.get])]),
      ("outside", .function [.tag (.group ⟨"away"⟩),
        .tag (.param .groupAuth (authParam "own" ""))])],
    []⟩

/-- A session that knows nothing but this controller. -/
def homeSession : Session :=
  start { Modules.start ⟨[], []⟩ .nowhere [[]] with world := [homeController] } Settings.default
    none

/-- The controller is collected by the rules. -/
theorem collect_resolved_homeSession :
    exec (recalled (homeSession.keyOf (.controller 0))) homeSession = (.ok none, homeSession) ∧
      ∃ s', exec (collect (.controller 0) false) homeSession = (.ok 0, s') ∧
        Resolved "default" (Collect.tagsOf homeController.tags)
          (homeSession.reflected (.controller 0) false) (s'.heap.model 0) := by
  have hmiss : exec (recalled (homeSession.keyOf (.controller 0))) homeSession
      = (.ok none, homeSession) := rfl
  refine ⟨hmiss, ?_⟩
  rcases collect_resolved (c := .controller 0) (by decide) hmiss false with
    ⟨e, hproperties, -⟩ | ⟨s', hresolved, hanswer | ⟨e, -, -, d, t, hdirectory, -⟩⟩
  · have hnone : Reflect.properties false (homeSession.ownersOf (.controller 0)) = .ok [] := rfl
    exact absurd (hproperties.symm.trans hnone) nofun
  · exact ⟨s', hanswer, hresolved⟩
  · exact absurd hdirectory nofun

end Session
end Routebook

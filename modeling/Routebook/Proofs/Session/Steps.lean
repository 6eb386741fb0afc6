/-
  Routebook.Proofs.Session.Steps

  The steps of a session, run on a state.  Each equation says what one step
  answers and what it leaves; longer runs are taken apart with them, step by
  step, and their definitions are not opened again.
-/
import Routebook.Proofs.Steps

namespace Routebook

namespace Session

open Steps

variable (s : Session)

@[simp] theorem exec_lift (r : Outcome α) : exec (lift r : Run α) s = (r, s) := by
  cases r <;> rfl

@[simp] theorem exec_load (x : Load α) :
    exec (load x) s = ((exec x s.modules).1, { s with modules := (exec x s.modules).2 }) := by
  have hload : exec (load x) s
      = exec (lift (exec x s.modules).1) { s with modules := (exec x s.modules).2 } := rfl
  rw [hload, exec_lift]

@[simp] theorem exec_addModel (c : ClassModel MethodModel) :
    exec (addModel c) s = (.ok s.heap.models.length, { s with heap := (s.heap.add c).1 }) := rfl

@[simp] theorem exec_merge (ids : List ModelId) :
    exec (merge ids) s
      = (.ok (s.heap.merge s.settings.defaultGroup ids).2,
          { s with heap := (s.heap.merge s.settings.defaultGroup ids).1 }) := rfl

@[simp] theorem exec_change (f : Tree → Tree.Change) :
    exec (change f) s
      = (((f s.tree).map fun _ => ()).mapError Prod.snd,
          { s with modules := { s.modules with tree := (f s.tree).after } }) := by
  have hchange : exec (change f) s
      = exec (lift (((f s.tree).map fun _ => ()).mapError Prod.snd))
          { s with modules := { s.modules with tree := (f s.tree).after } } := rfl
  rw [hchange, exec_lift]

/-! ## The cache -/

/-- What a session keeps under a key. -/
def kept (s : Session) (key : String) : Outcome (Option (ClassModel MethodModel)) :=
  match s.cache with
  | .memory items => .ok ((Entries.get? key items).map s.heap.model)
  | .directory d => Cache.load s.tree d key

section Cache

variable {s} {items : Entries ModelId} {d : Path} (key : String)

theorem exec_cached_memory (h : s.cache = .memory items) :
    exec (cached key) s = (.ok (Entries.get? key items), s) := by
  unfold cached
  rw [exec_bind_of_ok (exec_get s), h]
  rfl

theorem exec_keep_memory (id : ModelId) (h : s.cache = .memory items) :
    exec (keep key id) s = (.ok ⟨⟩, { s with cache := .memory (Entries.put key id items) }) := by
  unfold keep
  rw [exec_bind_of_ok (exec_get s), h]
  rfl

theorem exec_keep_directory (id : ModelId) (h : s.cache = .directory d) :
    exec (keep key id) s = exec (change fun t => Cache.store t d key (s.heap.model id)) s := by
  unfold keep
  rw [exec_bind_of_ok (exec_get s), h]

/-- What is read from a directory is a new model. -/
theorem exec_cached_directory (h : s.cache = .directory d) :
    exec (cached key) s
      = match Cache.load s.tree d key with
        | .ok (some c) => (.ok (some s.heap.models.length), { s with heap := (s.heap.add c).1 })
        | .ok none => (.ok none, s)
        | .error e => (.error e, s) := by
  obtain ⟨modules, heap, settings, base, cache⟩ := s
  obtain rfl : cache = .directory d := h
  unfold cached
  rw [exec_bind_of_ok (exec_get _)]
  simp only
  rw [exec_bind, exec_lift]
  cases Cache.load _ d key with
  | error e => rfl
  | ok found => cases found <;> rfl

theorem exec_recalled :
    exec (recalled key) s = if s.settings.cache then exec (cached key) s else (.ok none, s) := by
  unfold recalled
  rw [exec_bind_of_ok (exec_get s)]
  split <;> rfl

theorem exec_remember (id : ModelId) :
    exec (remember key id) s = if s.settings.cache then exec (keep key id) s else (.ok ⟨⟩, s) := by
  unfold remember
  rw [exec_bind_of_ok (exec_get s)]
  split <;> rfl

end Cache

/-! ## Collecting -/

theorem exec_collect (c : FoundClass) (publicOnly : Bool) :
    exec (collect c publicOnly) s
      = match exec (recalled (s.keyOf c)) s with
        | (.ok (some id), s') => (.ok id, s')
        | (.ok none, s') => exec (collectNew c publicOnly) s'
        | (.error e, s') => (.error e, s') := by
  unfold collect
  rw [exec_bind_of_ok (exec_get s), exec_bind]
  generalize exec (recalled (s.keyOf c)) s = r
  rcases r with ⟨e | found, s'⟩
  · rfl
  · cases found <;> rfl

theorem exec_collectNew (c : FoundClass) (publicOnly : Bool) :
    exec (collectNew c publicOnly) s
      = match s.reflectModel c publicOnly with
        | .error e => (.error e, s)
        | .ok m => exec (do remember (s.keyOf c) s.heap.models.length; return s.heap.models.length)
            { s with heap := (s.heap.add m).1 } := by
  unfold collectNew
  rw [exec_bind_of_ok (exec_get s), exec_bind, exec_lift]
  cases s.reflectModel c publicOnly with
  | error e => rfl
  | ok m =>
      simp only
      rw [exec_bind_of_ok (exec_addModel s m)]

/-! ## Merging -/

theorem exec_mergeOnDemand (merging : Bool) (models : Entries ModelId) :
    exec (mergeOnDemand merging models) s
      = (.ok ⟨⟩, if merging then
          { s with heap := (s.heap.merge s.settings.defaultGroup (Entries.values models)).1 }
        else s) := by
  unfold mergeOnDemand
  cases merging with
  | false => rfl
  | true =>
      show exec (discard (merge (Entries.values models)) : Run Unit) s = _
      rw [discard_eq_bind, exec_bind_of_ok (exec_merge s _)]
      rfl

end Session
end Routebook

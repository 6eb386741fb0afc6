/-
  Routebook.Proofs.Merge.Backfill

  What merging changes, and what it leaves as it is.  A method that is merged
  keeps its auth tags and is given those of its group that it lacks, behind its
  own and in the order of the group (`auth_complete_eq`); the group is finished
  by then, so tags count whose class is scanned later.  Nothing else changes,
  neither in the method nor anywhere (`backfill_of_merge`).
-/
import Routebook.Proofs.Merge.Stability
import Routebook.Proofs.Session.Heap

namespace Routebook

namespace Merge

variable {default : String} {classes : List (ClassModel MethodModel)}

theorem keyed_authOf_shells (name : String) :
    ∀ a ∈ authOf (shells default classes) name, a.1 = a.2.name := by
  rw [shells_eq]
  exact keyed_authOf_enterEach _ name

theorem nodup_authOf_shells (name : String) :
    (Entries.keys (authOf (shells default classes) name)).Nodup := by
  rw [shells_eq]
  exact nodup_authOf_enterEach _ name

/-- A completed method has its own auth tags, and behind them those of its group
under other names. -/
theorem auth_complete_eq (m : MethodModel) :
    (complete default (shells default classes) m).group.auth
      = m.group.auth ++ (authOf (shells default classes) (m.group.groupName default)).filter
          fun a => a.1 ∉ Entries.keys m.group.auth := by
  rw [complete_auth, named_values (keyed_authOf_shells _),
    Entries.putAllNew_eq_append_filter (nodup_authOf_shells _)]

end Merge

namespace Heap

open Merge

variable {h : Heap} {default : String} {ids : List ModelId}

theorem method_merge_of_mem (default : String) {m : MethodId} (hm : m ∈ h.methodsOf ids)
    (hmade : m < h.methods.length) :
    (h.merge default ids).1.method m
      = complete default (shells default (ids.map h.model)) (h.method m) := by
  rw [merge_fst, method_completeAll, if_pos ⟨hm, hmade⟩]

theorem method_merge_of_notMem {m : MethodId} (hm : m ∉ h.methodsOf ids) :
    (h.merge default ids).1.method m = h.method m := by
  rw [merge_fst, method_completeAll, if_neg fun hc => hm hc.1]

theorem method_merge_of_le {m : MethodId} (hmade : h.methods.length ≤ m) :
    (h.merge default ids).1.method m = h.method m := by
  rw [merge_fst, method_completeAll, if_neg fun hc => Nat.not_lt_of_le hmade hc.2]

/-- Of a method merging changes the auth tags at most. -/
theorem method_merge_eq_withAuth (h : Heap) (default : String) (ids : List ModelId) (m : MethodId) :
    (h.merge default ids).1.method m
      = (h.method m).withAuth ((h.merge default ids).1.method m).group.auth := by
  rw [merge_fst, method_completeAll]
  split <;> rfl

/-- The group of a method that is merged is there, lists the method, and has the
auth tags of its shell. -/
theorem exists_group_of_method (default : String) {m : MethodId} (hm : m ∈ h.methodsOf ids) :
    ∃ g, Entries.get? (h.groupOf default m) (h.merge default ids).2 = some g ∧ m ∈ g.methods ∧
      g.auth = authOf (shells default (ids.map h.model)) (h.groupOf default m) := by
  have hname : h.groupOf default m ∈ Entries.keys (h.merge default ids).2 := by
    rw [keys_merge]
    exact groupOf_mem_keys_shells default hm
  exact ⟨_, get?_merge hname, List.mem_filter.mpr ⟨hm, decide_eq_true rfl⟩, rfl⟩

/-- What merging does to what is shared, and nothing besides:

* a method that is merged keeps its auth tags in front and is given, in the
  order of its group, those tags of the finished group whose names it lacks, so
  afterwards it has a tag for every name of the group and for no new name else;
* a method that is not merged stays as it is, and of the others the name, the
  tags, the group and the description stay;
* the class models stay as they are, with the methods they hold;
* the groups list the very methods that the class models hold, as they are now. -/
theorem backfill_of_merge (h : Heap) (default : String) (ids : List ModelId)
    (hmade : ∀ m ∈ h.methodsOf ids, m < h.methods.length) :
    (∀ m ∈ h.methodsOf ids, ∃ g,
        Entries.get? (h.groupOf default m) (h.merge default ids).2 = some g ∧ m ∈ g.methods ∧
        ((h.merge default ids).1.method m).group.auth
          = (h.method m).group.auth ++
              g.auth.filter (fun a => a.1 ∉ Entries.keys (h.method m).group.auth) ∧
        ∀ name, name ∈ Entries.keys ((h.merge default ids).1.method m).group.auth ↔
          name ∈ Entries.keys (h.method m).group.auth ∨ name ∈ Entries.keys g.auth) ∧
      (∀ m, m ∉ h.methodsOf ids → (h.merge default ids).1.method m = h.method m) ∧
      (∀ m, (h.merge default ids).1.method m
        = (h.method m).withAuth ((h.merge default ids).1.method m).group.auth) ∧
      ((h.merge default ids).1.models = h.models ∧
        (h.merge default ids).1.methods.length = h.methods.length) ∧
      ∀ e ∈ (h.merge default ids).2, ((h.merge default ids).1.merged e.2).methods
        = ((h.methodsOf ids).filter fun m => h.groupOf default m = e.1).map
            (h.merge default ids).1.method := by
  refine ⟨fun m hm => ?_, fun m => method_merge_of_notMem, method_merge_eq_withAuth h default ids,
    ⟨models_merge h default ids, length_methods_merge h default ids⟩, fun e he => ?_⟩
  · obtain ⟨g, hget, hlists, hauth⟩ := exists_group_of_method default hm
    have hmethod := method_merge_of_mem default hm (hmade m hm)
    refine ⟨g, hget, hlists, ?_, fun name => ?_⟩
    · rw [hmethod, auth_complete_eq, hauth]
      rfl
    · rw [hmethod, complete_auth, named_values (keyed_authOf_shells _), hauth]
      exact Entries.mem_keys_putAllNew name _ _
  · rw [eq_of_mem_merge he]
    rfl

/-- The method that has moved to `misc` is given the tag of a class that comes later. -/
theorem backfill_of_merge_movedHeap :
    (∀ m ∈ movedHeap.methodsOf [0, 1], m < movedHeap.methods.length) ∧
      ∃ g, Entries.get? "misc" (movedHeap.merge "default" [0, 1]).2 = some g ∧ 1 ∈ g.methods ∧
        Entries.keys g.auth = ["sign", "tenant"] ∧
        ((movedHeap.merge "default" [0, 1]).1.method 1).group.auth
          = (movedHeap.method 1).group.auth ++
              g.auth.filter fun a => a.1 ∉ Entries.keys (movedHeap.method 1).group.auth := by
  have hmade : ∀ m ∈ movedHeap.methodsOf [0, 1], m < movedHeap.methods.length := by decide
  obtain ⟨g, hget, hlists, hauth, -⟩ :=
    (backfill_of_merge movedHeap "default" [0, 1] hmade).1 1 (by decide)
  have hkeys : (Entries.get? "misc" (movedHeap.merge "default" [0, 1]).2).map
      (fun g => Entries.keys g.auth) = some ["sign", "tenant"] := by decide
  have hmisc : movedHeap.groupOf "default" 1 = "misc" := by decide
  rw [hmisc] at hget
  rw [hget] at hkeys
  exact ⟨hmade, g, hget, hlists, Option.some.inj hkeys, hauth⟩

end Heap
end Routebook

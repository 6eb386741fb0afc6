/-
  Routebook.Proofs.Session.Recall

  What collecting owes to the calls before it.  Memory keeps the first model
  that was made under a name, and answers with it whatever class of that name
  is asked for, and whether all of it is or the public part (`told_afterCalls`).
  So calls answer as they do without a cache exactly as long as all classes in
  question that share a name have one model, and nothing in it is hidden from
  the public (`told_eq_uncached_iff`).

  That a run of calls does as a ledger says is an invariant of its steps
  (`Follows.call`); what the ledger says is then found by induction on the run.
-/
import Routebook.Proofs.Controller.Visibility
import Routebook.Proofs.Session.Collecting
import Routebook.Proofs.Session.Independence

namespace Routebook

open Steps

/-- A call for the model of a class, or for the public part of it. -/
structure Call where
  found : FoundClass
  publicOnly : Bool

/-- What a call asks for, as a session without a cache finds it. -/
def Call.finding (s : Session) (a : Call) : Finding :=
  ⟨s.keyOf a.found, s.reflectModel a.found a.publicOnly⟩

namespace Ledger

/-- The first model that was made under a name. -/
def first (key : String) (fs : List Finding) : Option (ClassModel MethodModel) :=
  fs.findSome? fun f => if f.key = key then f.model.toOption else none

/-- The ledger after some classes were collected. -/
def afterAll (l : Ledger) (fs : List Finding) : Ledger :=
  fs.foldl (fun l f => (collect true f l).2) l

/-- A model that is kept stays, and a new one is kept if there is one. -/
theorem get?_collect (f : Finding) (l : Ledger) (key : String) :
    Entries.get? key (collect true f l).2
      = (Entries.get? key l).or (if f.key = key then f.model.toOption else none) := by
  -- An entry that is there stays, whatever the class gives.
  cases hkept : Entries.get? f.key l with
  | some c =>
      rw [collect_of_kept hkept]
      by_cases hkey : f.key = key
      · rw [← hkey, hkept, Option.some_or]
      · rw [if_neg hkey, Option.or_none]
  | none =>
      cases hmodel : f.model with
      | error e =>
          rw [collect_of_error hkept hmodel]
          show _ = (Entries.get? key l).or (if f.key = key then none else none)
          rw [ite_self, Option.or_none]
      | ok c =>
          rw [collect_of_new hkept hmodel, Entries.get?_put]
          by_cases hkey : f.key = key
          · rw [if_pos hkey.symm, if_pos hkey, ← hkey, hkept, Option.none_or]
            rfl
          · rw [if_neg (Ne.symm hkey), if_neg hkey, Option.or_none]

theorem first_cons (key : String) (f : Finding) (fs : List Finding) :
    first key (f :: fs) = (if f.key = key then f.model.toOption else none).or (first key fs) := by
  unfold first
  rw [List.findSome?_cons]
  cases (if f.key = key then f.model.toOption else none) <;> rfl

theorem get?_afterAll (l : Ledger) (fs : List Finding) (key : String) :
    Entries.get? key (afterAll l fs) = (Entries.get? key l).or (first key fs) := by
  induction fs generalizing l with
  | nil => exact (Option.or_none).symm
  | cons f fs ih =>
      show Entries.get? key (afterAll (collect true f l).2 fs) = _
      rw [ih, get?_collect, Option.or_assoc, first_cons]

/-- What is kept is answered, and else what is made. -/
theorem collect_fst (f : Finding) (l : Ledger) :
    (collect true f l).1 = ((Entries.get? f.key l).map .ok).getD f.model := by
  cases hkept : Entries.get? f.key l with
  | some c => rw [collect_of_kept hkept]; rfl
  | none =>
      cases hmodel : f.model with
      | error e => rw [collect_of_error hkept hmodel]; rfl
      | ok c => rw [collect_of_new hkept hmodel]; rfl

end Ledger

namespace Session

/-- The model that a call answers. -/
def told (s : Session) (a : Call) : Outcome (ClassModel MethodModel) :=
  match exec (collect a.found a.publicOnly) s with
  | (.ok id, s') => .ok (s'.heap.model id)
  | (.error e, _) => .error e

/-- The session after some calls. -/
def afterCalls (s : Session) (history : List Call) : Session :=
  history.foldl (fun s a => (exec (collect a.found a.publicOnly) s).2) s

/-! ## One call -/

section Follows

variable {keys : String → Prop} {models : ClassModel MethodModel → Prop} {t : Tree}
variable {s₀ s : Session} {l : Ledger} (hkeys : ∀ key, keys key) (hmodels : ∀ m, models m)
include hkeys hmodels

/-- A call does as the ledger says. -/
theorem Follows.call (h : Follows keys models t s₀ [] s l) (a : Call) :
    s.told a = (Ledger.collect s₀.settings.cache (a.finding s₀) l).1 ∧
      Follows keys models t s₀ [] (exec (Session.collect a.found a.publicOnly) s).2
        (Ledger.collect s₀.settings.cache (a.finding s₀) l).2 := by
  have hdone := h.collect a.found a.publicOnly (hkeys _) fun m _ => hmodels m
  unfold told Call.finding
  generalize exec (Session.collect a.found a.publicOnly) s = r at hdone ⊢
  generalize Ledger.collect s₀.settings.cache _ l = r' at hdone ⊢
  rcases r with ⟨e | id, s'⟩ <;> rcases r' with ⟨e' | m, l'⟩
  · obtain ⟨rfl, hfollows⟩ := hdone
    exact ⟨rfl, hfollows⟩
  · exact hdone.elim
  · exact hdone.elim
  · obtain ⟨hfollows, hnow⟩ := hdone
    have hmodel : s'.heap.model id = m := by
      simpa [modelsNow, Entries.put, Entries.mapValues] using hnow
    exact ⟨congrArg Except.ok hmodel, hfollows.drop⟩

/-! ## Histories of calls -/

theorem Follows.afterCalls (h : Follows keys models t s₀ [] s l)
    (hcaching : s₀.settings.cache = true) (history : List Call) :
    Follows keys models t s₀ [] (s.afterCalls history)
      (l.afterAll (history.map (Call.finding s₀))) := by
  induction history generalizing s l with
  | nil => exact h
  | cons a history ih =>
      have hcall := (h.call hkeys hmodels a).2
      rw [hcaching] at hcall
      exact ih hcall

/-- A call is answered by what is kept, or else by the first model that the calls
before it made under its name, or else by its own. -/
theorem Follows.told_afterCalls (h : Follows keys models t s₀ [] s l)
    (hcaching : s₀.settings.cache = true) (history : List Call) (a : Call) :
    (s.afterCalls history).told a
      = (((Entries.get? (a.finding s₀).key l).or
          (Ledger.first (a.finding s₀).key (history.map (Call.finding s₀)))).map .ok).getD
        (a.finding s₀).model := by
  rw [((h.afterCalls hkeys hmodels hcaching history).call hkeys hmodels a).1, hcaching,
    Ledger.collect_fst, Ledger.get?_afterAll]

end Follows

/-- Without a cache every call is answered by its own model. -/
theorem told_uncached (s : Session) (a : Call) : s.uncached.told a = (a.finding s).model := by
  have hrecalled : exec (recalled (s.uncached.keyOf a.found)) s.uncached = (.ok none, s.uncached) :=
    exec_recalled _
  have hmodel : s.uncached.reflectModel a.found a.publicOnly = (a.finding s).model := rfl
  unfold told
  rw [exec_collect, hrecalled]
  simp only
  rw [exec_collectNew, hmodel]
  cases (a.finding s).model with
  | error e => rfl
  | ok m => exact congrArg Except.ok (Heap.model_add_self _ m)

section Start

variable (modules : Modules) {settings : Settings} (base : Option Path)

/-- After any calls a call is answered by the first model that was made under its name,
whichever class and whichever part of it that was, or else by its own. -/
theorem told_afterCalls (hcaching : settings.cache = true)
    (hmemory : settings.cacheDirectory = none) (history : List Call) (a : Call) :
    ((start modules settings base).afterCalls history).told a
      = ((Ledger.first (a.finding (start modules settings base)).key
          (history.map (Call.finding (start modules settings base)))).map .ok).getD
        (a.finding (start modules settings base)).model := by
  have hfollows : Follows (fun _ => True) (fun _ => True) modules.tree
      (start modules settings base) [] (start modules settings base) [] := by
    refine follows_start fun _ d hd => ?_
    rw [hmemory] at hd
    exact absurd hd nofun
  exact hfollows.told_afterCalls (fun _ => trivial) (fun _ => trivial) hcaching history a

/-- Calls of some sort are answered as without a cache, whatever calls of that sort came
before, exactly if those of one name make one model. -/
theorem told_eq_uncached_of_calls (hcaching : settings.cache = true)
    (hmemory : settings.cacheDirectory = none) (calls : Call → Prop) :
    let s := start modules settings base
    (∀ history a, (∀ b ∈ history, calls b) → calls a →
        (s.afterCalls history).told a = s.uncached.told a) ↔
      ∀ a b, calls a → calls b → (a.finding s).key = (b.finding s).key →
        ∀ m, (a.finding s).model = .ok m → (b.finding s).model = .ok m := by
  intro s
  constructor
  · intro hsame a b ha hb hkey m hm
    have htold := hsame [a] b (by simpa using ha) hb
    rw [told_afterCalls modules base hcaching hmemory, told_uncached] at htold
    have hfirst : Ledger.first (b.finding s).key [a.finding s] = some m := by
      rw [Ledger.first_cons, if_pos hkey, hm]
      rfl
    rw [← htold]
    show ((Ledger.first (b.finding s).key [a.finding s]).map Except.ok).getD _ = _
    rw [hfirst]
    rfl
  · intro hone history a hhistory ha
    rw [told_afterCalls modules base hcaching hmemory, told_uncached]
    cases hfirst : Ledger.first (a.finding s).key (history.map (Call.finding s)) with
    | none => rfl
    | some m =>
        -- The first model under the name was made by a call of the same sort.
        obtain ⟨f, hf, hmade⟩ := List.exists_of_findSome?_eq_some hfirst
        obtain ⟨b, hb, rfl⟩ := List.mem_map.mp hf
        split at hmade
        · next hkey =>
            have hm := Outcome.toOption_eq_some_iff.mp hmade
            exact (hone b a (hhistory b hb) ha hkey m hm).symm
        · exact absurd hmade nofun

/-- Calls for the whole and the public models of some classes are answered as without a
cache, whatever such calls came before, exactly if classes of one name have one model
and nothing in it is hidden from the public.  Without a cache the public model is the
whole one but for what is hidden. -/
theorem told_eq_uncached_iff (hcaching : settings.cache = true)
    (hmemory : settings.cacheDirectory = none) (classes : FoundClass → Prop) :
    let s := start modules settings base
    ((∀ history a, (∀ b ∈ history, classes b.found) → classes a.found →
        (s.afterCalls history).told a = s.uncached.told a) ↔
      ∀ c d, classes c → classes d → s.keyOf c = s.keyOf d → ∀ m,
        s.uncached.told ⟨c, false⟩ = .ok m →
          s.uncached.told ⟨d, false⟩ = .ok m ∧
            (∀ e ∈ m.methods, isPrivate e.1 = false) ∧ ∀ e ∈ m.properties, isPrivate e.1 = false) ∧
      ∀ c, s.uncached.told ⟨c, true⟩ = (s.uncached.told ⟨c, false⟩).map ClassModel.publicPart := by
  intro s
  have hpublic (c : FoundClass) :
      s.uncached.told ⟨c, true⟩ = (s.uncached.told ⟨c, false⟩).map ClassModel.publicPart := by
    rw [told_uncached, told_uncached]
    exact Collect.model_public _ _ _ _
  refine ⟨?_, hpublic⟩
  have hmodel (a : Call) : (a.finding s).model = s.uncached.told a := (told_uncached s a).symm
  refine (told_eq_uncached_of_calls modules base hcaching hmemory
    fun a => classes a.found).trans ?_
  simp only [show start modules settings base = s from rfl, hmodel]
  constructor
  · intro hone c d hc hd hkey m hm
    refine ⟨hone ⟨c, false⟩ ⟨d, false⟩ hc hd hkey m hm, ?_⟩
    -- The two calls for one class have one name, so its public model is the whole one.
    have hsame := hone ⟨c, false⟩ ⟨c, true⟩ hc hc rfl m hm
    rw [hpublic, hm] at hsame
    exact ClassModel.publicPart_eq_self_iff.mp (Except.ok.inj hsame)
  · rintro hone ⟨c, hidden⟩ ⟨d, hidden'⟩ hc hd hkey m hm
    -- Whichever part was asked for first, it is the whole model of the class.
    have hwhole : s.uncached.told ⟨c, false⟩ = .ok m := by
      cases hidden with
      | false => exact hm
      | true =>
          rw [hpublic] at hm
          obtain ⟨m', hm', rfl⟩ := Outcome.map_ok_iff.mp hm
          obtain ⟨-, hshown⟩ := hone c c hc hc rfl m' hm'
          rw [ClassModel.publicPart_eq_self_iff.mpr hshown]
          exact hm'
    obtain ⟨hother, hshown⟩ := hone c d hc hd hkey m hwhole
    cases hidden' with
    | false => exact hother
    | true =>
        rw [hpublic, hother]
        exact congrArg Except.ok (ClassModel.publicPart_eq_self_iff.mpr hshown)

end Start

/-- Nothing is hidden in this controller, so it is answered as without a cache. -/
theorem told_eq_uncached_homeSession :
    (homeSession.afterCalls [⟨.controller 0, true⟩]).told ⟨.controller 0, false⟩
      = homeSession.uncached.told ⟨.controller 0, false⟩ := by
  have hshown : ((homeSession.uncached.told ⟨.controller 0, false⟩).toOption.all fun m =>
      (m.methods.all fun e => !isPrivate e.1) && m.properties.all fun e => !isPrivate e.1)
      = true := by decide +kernel
  refine (told_eq_uncached_iff homeSession.modules none rfl rfl fun c => c = .controller 0).1.mpr
    ?_ [⟨.controller 0, true⟩] ⟨.controller 0, false⟩ (by simp) rfl
  rintro c d rfl rfl - m hm
  rw [show start homeSession.modules Settings.default none = homeSession from rfl] at hm
  rw [hm] at hshown
  refine ⟨hm, ?_⟩
  simpa [Except.toOption] using hshown

/-- A controller with a method that is hidden from the public. -/
def shyController : Controller :=
  ⟨"m", "A", [], [], [("one", .function []), ("_two", .function [])], []⟩

/-- A session that knows nothing but this controller. -/
def shySession : Session :=
  start { Modules.start ⟨[], []⟩ .nowhere [[]] with world := [shyController] } Settings.default none

/-- The hidden method is missing once the public part was asked for. -/
theorem told_shySession_ne_uncached :
    (shySession.afterCalls [⟨.controller 0, true⟩]).told ⟨.controller 0, false⟩
      ≠ shySession.uncached.told ⟨.controller 0, false⟩ := by
  have hnames : (((shySession.afterCalls [⟨.controller 0, true⟩]).told ⟨.controller 0, false⟩).map
      fun m => Entries.keys m.methods).toOption = some ["one"] := by decide +kernel
  have hall : ((shySession.uncached.told ⟨.controller 0, false⟩).map
      fun m => Entries.keys m.methods).toOption = some ["one", "_two"] := by decide +kernel
  intro hsame
  rw [hsame, hall] at hnames
  exact absurd hnames (by decide)

end Session
end Routebook

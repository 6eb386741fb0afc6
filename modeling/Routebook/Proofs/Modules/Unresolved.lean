/-
  Routebook.Proofs.Modules.Unresolved

  What is found for a text that leads to no file and no directory.  Such a text
  can still be the name of a class, cut at its last dot into the name of a
  module and a name in it; what it stands for is then told by how the import of
  that module ends (`StandsFor`).  This is the answer but for three cases, which
  `classes_of_unresolved` sets apart:

    * a name in the path is too long, and looking for the file fails;
    * the name of the module starts with a dot, and importing refuses it;
    * a module on the way fails for want of a module that is itself on the way:
      its failure is taken for that of a text that names nothing.
-/
import Routebook.Proofs.Files.Places
import Routebook.Proofs.Modules.Importing
import Routebook.Proofs.Text.Cut

namespace Routebook

/-! ## Names of classes -/

/-- A text is the name of a module and a name in it, with its last dot between them. -/
structure Splits (text module name : String) : Prop where
  text_eq : text = module ++ "." ++ name
  last : '.' ∉ name.toList
  module_ne : module ≠ ""
  name_ne : name ≠ ""

namespace Naming

theorem cutLast_append {before last : String} (h : '.' ∉ last.toList) :
    cutLast (before ++ "." ++ last) = (before, last) := by
  have hchars : (before ++ "." ++ last).toList = before.toList ++ '.' :: last.toList := by
    simp [String.toList_append]
  have hlast := Text.bne_of_notMem h
  have hdot : ¬ ('.' != '.') = true := by decide
  rw [cutLast]
  simp only [hchars, Text.dropWhile_cut hlast hdot, Text.takeWhile_cut hlast hdot,
    List.reverse_reverse, String.ofList_toList]

theorem cutLast_of_notMem {text : String} (h : '.' ∉ text.toList) : cutLast text = ("", text) := by
  rw [cutLast]
  simp only [Text.dropWhile_uncut (Text.bne_of_notMem h)]

end Naming

theorem Splits.cutLast {text module name : String} (h : Splits text module name) :
    Naming.cutLast text = (module, name) :=
  h.text_eq ▸ Naming.cutLast_append h.last

theorem Splits.unique {text module name module' name' : String} (h : Splits text module name)
    (h' : Splits text module' name') : module' = module ∧ name' = name :=
  Prod.mk.inj (h'.cutLast.symm.trans h.cutLast)

/-- A text splits where it is cut, unless nothing stands on one side. -/
theorem splits_of_cutLast {text : String} (hmodule : (Naming.cutLast text).1 ≠ "")
    (hname : (Naming.cutLast text).2 ≠ "") :
    Splits text (Naming.cutLast text).1 (Naming.cutLast text).2 := by
  by_cases hdot : '.' ∈ text.toList
  -- The cut is at the last dot, so it can be undone.
  · obtain ⟨before, last, hchars, hlast⟩ := Text.exists_cut hdot
    have htext : text = String.ofList before ++ "." ++ String.ofList last := by
      rw [← String.toList_inj, hchars]
      simp [String.toList_append]
    have hlast' : '.' ∉ (String.ofList last).toList := by rwa [String.toList_ofList]
    have hcut : Naming.cutLast (String.ofList before ++ "." ++ String.ofList last)
        = (String.ofList before, String.ofList last) := Naming.cutLast_append hlast'
    rw [← htext] at hcut
    rw [hcut] at hmodule hname ⊢
    exact ⟨htext, hlast', hmodule, hname⟩
  · rw [Naming.cutLast_of_notMem hdot] at hmodule
    exact absurd rfl hmodule

namespace Discover

open Import Steps

/-! ## What a text stands for -/

/-- What a text that leads to no file stands for, and the table in which it is found: the
class it names, the failure of a module that has to run for it, or nothing. -/
inductive StandsFor (m : Modules) (text : String) : Outcome (List FoundClass) → Modules → Prop
  | unnamed (h : ∀ module name, Splits text module name → module.startsWith "." = true) :
      StandsFor m text (.ok []) m
  | missing {module name missing : String} {m' : Modules} (hsplits : Splits text module name)
      (hfull : module.startsWith "." = false) (himport : Imports m module (.missing missing) m') :
      StandsFor m text (.ok []) m'
  | broken {module name at' : String} {why : Failure} {m' : Modules}
      (hsplits : Splits text module name) (hfull : module.startsWith "." = false)
      (himport : Imports m module (.broken at' why) m') : StandsFor m text (.error why) m'
  | classless {module name : String} {m' : Modules} (hsplits : Splits text module name)
      (hfull : module.startsWith "." = false) (himport : Imports m module .arrived m')
      (hclass : classIn? m' module name = none) : StandsFor m text (.ok []) m'
  | found {module name : String} {c : FoundClass} {m' : Modules}
      (hsplits : Splits text module name) (hfull : module.startsWith "." = false)
      (himport : Imports m module .arrived m') (hclass : classIn? m' module name = some c) :
      StandsFor m text (.ok [c]) m'

/-- The module that a text names is given relative to another one. -/
def IsRelative (text : String) : Prop :=
  ∃ module name, Splits text module name ∧ module.startsWith "." = true

/-- A failure for want of a module on the way to the one that a text names. -/
def IsHushed (text : String) (r : Outcome (List FoundClass)) : Prop :=
  ∃ module name missing, Splits text module name ∧ missing ∈ Naming.wayTo module ∧
    r = .error (.noModule missing)

variable {m m' m'' : Modules} {text module name : String} {r r' : Outcome (List FoundClass)}

theorem not_isRelative (hsplits : Splits text module name)
    (hfull : module.startsWith "." = false) : ¬ IsRelative text := by
  rintro ⟨module', name', hsplits', hstart⟩
  obtain ⟨rfl, rfl⟩ := hsplits.unique hsplits'
  exact absurd hstart (by simp [hfull])

theorem exists_standsFor (m : Modules) (text : String) : ∃ r m', StandsFor m text r m' := by
  by_cases hnamed : ∃ module name, Splits text module name ∧ module.startsWith "." = false
  · obtain ⟨module, name, hsplits, hfull⟩ := hnamed
    obtain ⟨e, m', himport⟩ := exists_imports m module
    cases e with
    | arrived =>
        cases hclass : classIn? m' module name with
        | none => exact ⟨_, m', .classless hsplits hfull himport hclass⟩
        | some c => exact ⟨_, m', .found hsplits hfull himport hclass⟩
    | missing missing => exact ⟨_, m', .missing hsplits hfull himport⟩
    | broken at' why => exact ⟨_, m', .broken hsplits hfull himport⟩
  · refine ⟨_, m, .unnamed fun module name hsplits => ?_⟩
    by_contra hstart
    exact hnamed ⟨module, name, hsplits, Bool.eq_false_iff.mpr hstart⟩

/-- What is found in a module whose import ends in some way. -/
def answer (m : Modules) (module name : String) : Ending → Outcome (List FoundClass)
  | .arrived => .ok (classIn? m module name).toList
  | .missing _ => .ok []
  | .broken _ why => .error why

theorem StandsFor.eq_answer {e : Ending} (h : StandsFor m text r m')
    (hsplits : Splits text module name) (hfull : module.startsWith "." = false)
    (himport : Imports m module e m'') : r = answer m'' module name e ∧ m' = m'' := by
  cases h with
  | unnamed hnone => exact absurd (hnone module name hsplits) (by simp [hfull])
  | missing hsplits' _ himport' | broken hsplits' _ himport' =>
      obtain ⟨rfl, rfl⟩ := hsplits.unique hsplits'
      obtain ⟨rfl, rfl⟩ := himport.unique himport'
      exact ⟨rfl, rfl⟩
  | classless hsplits' _ himport' hclass | found hsplits' _ himport' hclass =>
      obtain ⟨rfl, rfl⟩ := hsplits.unique hsplits'
      obtain ⟨rfl, rfl⟩ := himport.unique himport'
      rw [answer, hclass]
      exact ⟨rfl, rfl⟩

/-- A text stands for one thing. -/
theorem StandsFor.unique (h : StandsFor m text r m') (h' : StandsFor m text r' m'') :
    r' = r ∧ m'' = m' := by
  cases h with
  | unnamed hnone =>
      cases h' with
      | unnamed _ => exact ⟨rfl, rfl⟩
      | missing hsplits hfull _ | broken hsplits hfull _ | classless hsplits hfull _ _
      | found hsplits hfull _ _ => exact absurd (hnone _ _ hsplits) (by simp [hfull])
  | missing hsplits hfull himport | broken hsplits hfull himport =>
      exact h'.eq_answer hsplits hfull himport
  | classless hsplits hfull himport hclass | found hsplits hfull himport hclass =>
      have hanswer := h'.eq_answer hsplits hfull himport
      rwa [answer, hclass] at hanswer

/-! ## The search -/

theorem exec_importClass_of_unnamed (hnone : ∀ module name, ¬ Splits text module name) :
    exec (importClass text) m = (.ok none, m) := by
  have hempty : (Naming.cutLast text).1 = "" ∨ (Naming.cutLast text).2 = "" := by
    by_contra h
    obtain ⟨hmodule, hname⟩ := not_or.mp h
    exact hnone _ _ (splits_of_cutLast hmodule hname)
  rw [importClass]
  dsimp only
  rw [if_pos (by simpa using hempty)]
  rfl

theorem exec_importClass_of_relative (hrelative : IsRelative text) :
    exec (importClass text) m = (.error .wrongType, m) := by
  obtain ⟨module, name, hsplits, hstart⟩ := hrelative
  rw [importClass, hsplits.cutLast]
  dsimp only
  rw [if_neg (by simp [hsplits.module_ne, hsplits.name_ne]), if_pos hstart]
  rfl

section Named

variable (hsplits : Splits text module name) (hfull : module.startsWith "." = false)
include hsplits hfull

theorem exec_importClass :
    exec (importClass text) m
      = exec (tryCatch (classNamed module name) (withoutModule module)) m := by
  rw [importClass, hsplits.cutLast]
  dsimp only
  rw [if_neg (by simp [hsplits.module_ne, hsplits.name_ne]), if_neg (by simp [hfull])]

theorem exec_importClass_of_ok {found? : Option FoundClass}
    (h : exec (classNamed module name) m = (.ok found?, m')) :
    exec (importClass text) m = (.ok found?, m') := by
  rw [exec_importClass hsplits hfull, exec_tryCatch, h]

/-- The want of a module on the way is taken for that of the text itself. -/
theorem exec_importClass_of_onTheWay {missing : String}
    (h : exec (classNamed module name) m = (.error (.noModule missing), m'))
    (hmem : missing ∈ Naming.wayTo module) : exec (importClass text) m = (.ok none, m') := by
  rw [exec_importClass hsplits hfull, exec_tryCatch, h]
  dsimp only
  rw [withoutModule, if_pos ((isOnTheWay_iff hsplits.module_ne).mpr hmem)]
  rfl

theorem exec_importClass_of_error {why : Failure}
    (h : exec (classNamed module name) m = (.error why, m'))
    (hother : ∀ missing ∈ Naming.wayTo module, why ≠ .noModule missing) :
    exec (importClass text) m = (.error why, m') := by
  rw [exec_importClass hsplits hfull, exec_tryCatch, h]
  dsimp only
  unfold withoutModule
  split
  · next missing =>
      have hoff : ¬ isOnTheWay module missing = true := fun hway =>
        hother missing ((isOnTheWay_iff hsplits.module_ne).mp hway) rfl
      rw [if_neg hoff]
      rfl
  · rfl

end Named

theorem exec_classNamed_of_failure {e : Ending} {why : Failure} (himport : Imports m module e m')
    (hwhy : e.outcome = .error why) : exec (classNamed module name) m = (.error why, m') :=
  exec_bind_of_error (hwhy ▸ himport.exec_module)

theorem exec_classNamed_of_arrived (himport : Imports m module .arrived m') :
    exec (classNamed module name) m = (.ok (classIn? m' module name), m') := by
  rw [classNamed, exec_bind_of_ok himport.exec_module]
  rfl

/-- What a text stands for is what is answered for it, unless importing refuses its module, or
the failure of a module is taken for that of the text. -/
theorem StandsFor.exec_importClass (h : StandsFor m text r m') (hfull : ¬ IsRelative text) :
    (¬ IsHushed text r →
      ∃ found?, exec (importClass text) m = (found?, m') ∧ found?.map Option.toList = r) ∧
      (IsHushed text r → exec (importClass text) m = (.ok none, m')) := by
  cases h with
  | unnamed hnone =>
      have hexec := exec_importClass_of_unnamed (m := m) fun module name hsplits =>
        hfull ⟨module, name, hsplits, hnone module name hsplits⟩
      exact ⟨fun _ => ⟨_, hexec, rfl⟩, fun _ => hexec⟩
  | missing hsplits hstart himport =>
      have hexec := exec_importClass_of_onTheWay hsplits hstart
        (exec_classNamed_of_failure himport rfl) himport.mem_wayTo
      exact ⟨fun _ => ⟨_, hexec, rfl⟩, fun _ => hexec⟩
  | @broken module name _ why _ hsplits hstart himport =>
      have hfailed : exec (classNamed module name) m = (.error why, m') :=
        exec_classNamed_of_failure himport rfl
      -- Of the failure only the name in it is looked at.
      constructor
      · intro hloud
        refine ⟨_, exec_importClass_of_error hsplits hstart hfailed
          fun missing hmem hwhy => ?_, rfl⟩
        exact hloud ⟨_, _, missing, hsplits, hmem, congrArg _ hwhy⟩
      · rintro ⟨module', name', missing, hsplits', hmem, hwhy⟩
        obtain ⟨rfl, rfl⟩ := hsplits.unique hsplits'
        obtain rfl := Except.error.inj hwhy
        exact exec_importClass_of_onTheWay hsplits hstart hfailed hmem
  | classless hsplits hstart himport hclass =>
      have hexec := exec_importClass_of_ok hsplits hstart (exec_classNamed_of_arrived himport)
      rw [hclass] at hexec
      exact ⟨fun _ => ⟨_, hexec, rfl⟩, fun _ => hexec⟩
  | found hsplits hstart himport hclass =>
      have hexec := exec_importClass_of_ok hsplits hstart (exec_classNamed_of_arrived himport)
      rw [hclass] at hexec
      refine ⟨fun _ => ⟨_, hexec, rfl⟩, ?_⟩
      rintro ⟨_, _, _, _, _, hr⟩
      exact absurd hr nofun

/-- What is answered for a text that leads to no file. -/
theorem exec_classes_of_probe (h : m.tree.probe (Path.ofText text) = .ok none)
    {found? : Outcome (Option FoundClass)} (himport : exec (importClass text) m = (found?, m')) :
    exec (classes text) m = (found?.map Option.toList, m') := by
  rw [classes]
  dsimp only
  rw [exec_bind_of_ok (exec_get m), h, exec_bind_of_ok (exec_importLift _)]
  cases found? with
  | ok found? => exact exec_bind_of_ok himport
  | error e => exact exec_bind_of_error himport

theorem exec_classes_of_tooLong (h : m.tree.lookup (Path.ofText text) = .tooLong) :
    exec (classes text) m = (.error .badPath, m) := by
  have hfailed : m.tree.probe (Path.ofText text) = .error .badPath := by
    rw [Tree.probe, h]
  rw [classes]
  dsimp only
  rw [exec_bind_of_ok (exec_get m), hfailed]
  exact exec_bind_of_error (exec_importLift _)

/-- What is found for a text that leads to no file and no directory: what it stands for, unless
a name in it is too long, its module is relative, or a module fails for want of one on the way. -/
theorem classes_of_unresolved
    (hnone : ∀ place node, m.tree.lookup (Path.ofText text) ≠ .found place node) :
    ∃ r m', StandsFor m text r m' ∧ (∀ r' m'', StandsFor m text r' m'' → r' = r ∧ m'' = m') ∧
      (m.tree.lookup (Path.ofText text) = .tooLong →
        exec (classes text) m = (.error .badPath, m)) ∧
      (m.tree.lookup (Path.ofText text) ≠ .tooLong → IsRelative text →
        exec (classes text) m = (.error .wrongType, m)) ∧
      (m.tree.lookup (Path.ofText text) ≠ .tooLong → ¬ IsRelative text → IsHushed text r →
        exec (classes text) m = (.ok [], m')) ∧
      (m.tree.lookup (Path.ofText text) ≠ .tooLong → ¬ IsRelative text → ¬ IsHushed text r →
        exec (classes text) m = (r, m')) := by
  obtain ⟨r, m', hstands⟩ := exists_standsFor m text
  have hprobe : m.tree.lookup (Path.ofText text) ≠ .tooLong →
      m.tree.probe (Path.ofText text) = .ok none := fun hshort => by
    unfold Tree.probe
    split
    · next place node hfound => exact absurd hfound (hnone place node)
    · next hlong => exact absurd hlong hshort
    · rfl
  refine ⟨r, m', hstands, fun _ _ => hstands.unique, exec_classes_of_tooLong,
    fun hshort hrelative => ?_, fun hshort hfull hhushed => ?_, fun hshort hfull hloud => ?_⟩
  · exact exec_classes_of_probe (hprobe hshort) (exec_importClass_of_relative hrelative)
  · exact exec_classes_of_probe (hprobe hshort) ((hstands.exec_importClass hfull).2 hhushed)
  · obtain ⟨found?, hexec, rfl⟩ := (hstands.exec_importClass hfull).1 hloud
    exact exec_classes_of_probe (hprobe hshort) hexec

/-- The package `a` with the module `b`, in which there is a class, and a module outside the
files with another one. -/
def plainPackage : Modules :=
  .start ⟨["work"], [(["work", "a"], .directory),
    (["work", "a", "__init__.py"], .file (.program ⟨[], false⟩)),
    (["work", "a", "b.py"], .file (.program ⟨[.define (.mk "C" [] [] []) true], false⟩))]⟩
    (.ofTable [("json", .ok [("JSONDecoder", .type "json.decoder.JSONDecoder")])]) [["work"]]

/-- A name of a class, in a module that has to be imported. -/
theorem splits_classInPackage : Splits "a.b.C" "a.b" "C" := ⟨rfl, by decide, by decide, by decide⟩

theorem startsWith_package : "a.b".startsWith "." = false :=
  Bool.eq_false_iff.mpr (mt (startsWith_iff _ _).mp (by decide))

/-- Names of classes: one in a module, the one that the module itself is of, and one in a module
outside the files. -/
def classTexts : List String := ["a.b.C", "a.b.__class__", "json.JSONDecoder"]

/-- Each of the three classes is found. -/
theorem classes_of_unresolved_plainPackage :
    (∀ text ∈ classTexts, ∀ place node,
      plainPackage.tree.lookup (Path.ofText text) ≠ .found place node) ∧
      (∃ m', exec (classes "a.b.C") plainPackage = (.ok [.controller 0], m')) ∧
      (∃ m', exec (classes "a.b.__class__") plainPackage
        = (.ok [.foreign "builtins.module"], m')) ∧
      ∃ m', exec (classes "json.JSONDecoder") plainPackage
        = (.ok [.foreign "json.decoder.JSONDecoder"], m') := by
  have hmissing : ∀ text ∈ classTexts, plainPackage.tree.lookup (Path.ofText text) = .missing := by
    simp only [classTexts, List.forall_mem_cons, List.not_mem_nil, false_imp_iff, implies_true,
      and_true]
    exact ⟨rfl, rfl, rfl⟩
  have hnone : ∀ text ∈ classTexts, ∀ place node,
      plainPackage.tree.lookup (Path.ofText text) ≠ .found place node := by
    intro text htext place node hfound
    exact absurd ((hmissing text htext).symm.trans hfound) nofun
  -- A module that is imported answers with its class, if it has one of the name.
  have hanswer {text module name : String} {m' : Modules} (htext : text ∈ classTexts)
      (hsplits : Splits text module name) (hfull : module.startsWith "." = false)
      (himport : Imports plainPackage module .arrived m') :
      exec (classes text) plainPackage = (.ok (classIn? m' module name).toList, m') := by
    obtain ⟨r, m'', hstands, -, -, -, -, hfound⟩ := classes_of_unresolved (hnone text htext)
    obtain ⟨rfl, rfl⟩ := hstands.eq_answer hsplits hfull himport
    refine hfound (by rw [hmissing text htext]; nofun) (not_isRelative hsplits hfull) ?_
    rintro ⟨_, _, _, _, _, hr⟩
    exact absurd hr nofun
  have hinner : Imports plainPackage "a.b" .arrived (exec (Import.module "a.b") plainPackage).2 :=
    .entered rfl rfl rfl (.entered rfl rfl rfl .done)
  have houter : Imports plainPackage "json" .arrived (exec (Import.module "json") plainPackage).2 :=
    .entered rfl rfl rfl .done
  have hclass : Splits "a.b.__class__" "a.b" "__class__" :=
    ⟨rfl, by decide, by decide, by decide⟩
  have hdecoder : Splits "json.JSONDecoder" "json" "JSONDecoder" :=
    ⟨rfl, by decide, by decide, by decide⟩
  have hfull : "json".startsWith "." = false :=
    Bool.eq_false_iff.mpr (mt (startsWith_iff _ _).mp (by decide))
  exact ⟨hnone, ⟨_, hanswer (by decide) splits_classInPackage startsWith_package hinner⟩,
    ⟨_, hanswer (by decide) hclass startsWith_package hinner⟩,
    ⟨_, hanswer (by decide) hdecoder hfull houter⟩⟩

/-- No module is there. -/
def nothing : Modules := .start ⟨["work"], []⟩ .nowhere [["work"]]

/-- A package that asks for a module in it that is not there. -/
def needyPackage : Modules :=
  .start ⟨["work"], [(["work", "a"], .directory),
    (["work", "a", "__init__.py"], .file (.program ⟨[.importFrom "X" "a.b"], false⟩))]⟩
    .nowhere [["work"]]

/-- Each of the three cases: two texts that stand for nothing fail, and the failure of a package
is answered as if nothing were there. -/
theorem classes_of_unresolved_astray :
    (nothing.tree.lookup (Path.ofText "./missing.py") = .missing ∧
      StandsFor nothing "./missing.py" (.ok []) nothing ∧
      exec (classes "./missing.py") nothing = (.error .wrongType, nothing)) ∧
    (StandsFor nothing Tree.longName (.ok []) nothing ∧
      exec (classes Tree.longName) nothing = (.error .badPath, nothing)) ∧
    (needyPackage.tree.lookup (Path.ofText "a.b.C") = .missing ∧
      StandsFor needyPackage "a.b.C" (.error (.noModule "a.b")) needyPackage ∧
      exec (classes "a.b.C") needyPackage = (.ok [], needyPackage)) := by
  have hsplits : Splits "./missing.py" "./missing" "py" := ⟨rfl, by decide, by decide, by decide⟩
  have hstart : "./missing".startsWith "." = true := (startsWith_iff _ _).mpr (by decide)
  have hunsplit : ∀ module name, ¬ Splits Tree.longName module name := fun module name h => by
    have hdot : '.' ∈ Tree.longName.toList := by
      rw [h.text_eq]
      simp [String.toList_append]
    exact absurd (Tree.mem_longName.mp hdot) (by decide)
  -- The package fails while it runs: it asks for `a.b` before anything else does.
  have hneedy : Imports needyPackage "a.b" (.broken "a" (.noModule "a.b")) needyPackage :=
    .broken rfl rfl rfl
  have hbroken : StandsFor needyPackage "a.b.C" (.error (.noModule "a.b")) needyPackage :=
    .broken splits_classInPackage startsWith_package hneedy
  refine ⟨⟨rfl, ?_, ?_⟩, ⟨?_, ?_⟩, rfl, hbroken, ?_⟩
  · refine .unnamed fun module name h => ?_
    obtain ⟨rfl, rfl⟩ := hsplits.unique h
    exact hstart
  · exact exec_classes_of_probe rfl (exec_importClass_of_relative ⟨_, _, hsplits, hstart⟩)
  · exact .unnamed fun module name h => absurd h (hunsplit module name)
  · exact exec_classes_of_tooLong (Tree.lookup_longName _)
  · refine exec_classes_of_probe rfl ((hbroken.exec_importClass
      (not_isRelative splits_classInPackage startsWith_package)).2 ?_)
    exact ⟨_, _, _, splits_classInPackage, Naming.mem_wayTo_iff.mpr (.inl rfl), rfl⟩

end Discover
end Routebook

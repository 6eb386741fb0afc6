/-
  Routebook.Proofs.Handbook.Chapters

  What a handbook leaves out, and that leaving it out beforehand changes
  nothing.  Groups whose keys are marked, methods that are no actions or marked
  ones, and groups in which nothing remains are taken away (`prune`); the
  handbook of what is left is the handbook of all (`markdown_prune`), and it has
  one chapter for every group that is left, with one section for every method.

  Writing skips a group by comparing the text of its methods with the empty
  text.  That this test agrees with `prune` rests on two facts: the section of
  an action is never empty, and what is left out writes nothing and fails
  nowhere.
-/
import Routebook.Handbook.Markdown
import Routebook.Proofs.Outcome

namespace Routebook

/-! ## Bags as they are collected -/

/-- Under the name of a kind stand only tags of that kind. -/
def Bag.Kinded (b : Bag) : Prop := ∀ e ∈ b, ∀ t ∈ e.2, t.kind.name = e.1

instance (b : Bag) : Decidable b.Kinded :=
  inferInstanceAs (Decidable (∀ e ∈ b, ∀ t ∈ e.2, t.kind.name = e.1))

theorem Bag.Kinded.kind_of_mem {b : Bag} (h : b.Kinded) {kind : Kind} {t : Tag}
    (ht : t ∈ Bag.tags b kind.name) : t.kind = kind := by
  unfold Bag.tags at ht
  cases hget : Entries.get? kind.name b with
  | none =>
      rw [hget] at ht
      exact absurd ht List.not_mem_nil
  | some tags =>
      rw [hget] at ht
      exact Kind.name_inj (h _ (Entries.mem_of_get? hget) t ht)

namespace Handbook

/-! ## Marked names -/

/-- The marker of generated code occurs in a name; an empty marker marks nothing. -/
def Marked (marker name : String) : Prop := marker ≠ "" ∧ marker.toList <:+: name.toList

instance (marker name : String) : Decidable (Marked marker name) :=
  inferInstanceAs (Decidable (marker ≠ "" ∧ marker.toList <:+: name.toList))

theorem occursIn_iff {part cs : List Char} : occursIn part cs = true ↔ part <:+: cs := by
  induction cs with
  | nil => simp [occursIn]
  | cons c cs ih => simp [occursIn, ih, List.infix_cons_iff]

theorem skipped_eq (marker name : String) : skipped marker name = decide (Marked marker name) := by
  rw [Bool.eq_iff_iff, decide_eq_true_iff, skipped, Bool.and_eq_true, bne_iff_ne, occursIn_iff]
  rfl

/-! ## What is left out -/

variable {μ : Type}

/-- A method is left out if it has no tag of an action, or its first one is marked. -/
def leftOut (marker : String) (bag : Bag) : Bool :=
  match Bag.tags bag "Api" with
  | [] => true
  | .api a :: _ => decide (Marked marker a.name)
  | _ => false

/-- A group without the methods that are left out. -/
def pruneMethods (bagOf : μ → Bag) (marker : String) (g : MergedGroup μ) : MergedGroup μ :=
  { g with methods := g.methods.filter fun m => !leftOut marker (bagOf m) }

/-- Nothing is known of a group but its name. -/
def isBare (g : MergedGroup μ) : Bool :=
  g.description.isNone && g.auth.isEmpty && g.methods.isEmpty

/-- The groups that are not marked, without the methods that are left out;
those that are bare then are gone as well. -/
def prune (bagOf : μ → Bag) (marker : String) (groups : Entries (MergedGroup μ)) :
    Entries (MergedGroup μ) :=
  (Entries.mapValues (pruneMethods bagOf marker)
    (groups.filter fun e => !decide (Marked marker e.1))).filter fun e => !isBare e.2

/-! ## Chapters -/

/-- The text of a group in parts. -/
structure Chapter where
  /-- The heading, the description and the auth tags. -/
  opening : String
  /-- The sections of the methods. -/
  sections : List String

/-- The whole text of a chapter. -/
def Chapter.text (c : Chapter) : String :=
  c.opening ++ String.join c.sections ++ "<hr class='method-hr'/>" ++ blockEnd

/-- The chapter of a group, whether it has anything to show or not. -/
def chapterOf (frame : Frame) (g : MergedGroup MethodModel) : Outcome Chapter := do
  let description ← groupDescription frame.files g.description
  let sections ← g.methods.mapM (methodSection frame g.name)
  return ⟨groupHeading g.name ++ description ++ groupAuth g.auth ++
    "<hr class='group-hr'/>" ++ blockEnd, sections⟩

/-! ## The section of a method -/

theorem action?_of_tags {bag : Bag} {a : Api} {rest : List Tag}
    (h : Bag.tags bag "Api" = .api a :: rest) : action? bag = some a := by
  unfold action? Bag.first?
  rw [h]
  rfl

/-- The tags under the name of actions are actions. -/
theorem exists_action {bag : Bag} (hbag : bag.Kinded) (h : Bag.tags bag "Api" ≠ []) :
    ∃ a rest, Bag.tags bag "Api" = .api a :: rest := by
  cases htags : Bag.tags bag "Api" with
  | nil => exact absurd htags h
  | cons t rest =>
      have hmem : t ∈ Bag.tags bag Kind.api.name := by
        rw [Kind.name, htags]
        exact List.mem_cons_self
      have hkind : t.kind = .api := hbag.kind_of_mem hmem
      cases t with
      | api a => exact ⟨a, rest, rfl⟩
      | _ => exact absurd hkind (by simp [Tag.kind])

theorem exists_action_of_not_leftOut {marker : String} {bag : Bag} (hbag : bag.Kinded)
    (h : leftOut marker bag = false) :
    ∃ a rest, Bag.tags bag "Api" = .api a :: rest ∧ ¬ Marked marker a.name := by
  unfold leftOut at h
  have hsome : Bag.tags bag "Api" ≠ [] := by
    intro hnil
    rw [hnil] at h
    exact absurd h (by simp)
  obtain ⟨a, rest, htags⟩ := exists_action hbag hsome
  rw [htags] at h
  exact ⟨a, rest, htags, of_decide_eq_false h⟩

theorem methodSection_of_leftOut {frame : Frame} {m : MethodModel} (group : String)
    (h : leftOut frame.marker m.bag = true) : methodSection frame group m = .ok "" := by
  unfold leftOut at h
  unfold methodSection
  -- The first tag under the kind decides: there is none, or it is marked.
  cases htags : Bag.tags m.bag "Api" with
  | nil =>
      have hnone : action? m.bag = none := by
        unfold action? Bag.first?
        rw [htags]
        rfl
      rw [hnone]
      rfl
  | cons t rest =>
      rw [htags] at h
      cases t with
      | api a =>
          rw [action?_of_tags htags]
          simp only [skipped_eq, h, if_true]
          rfl
      | _ => exact absurd h (by simp)

theorem methodSection_of_action {frame : Frame} {m : MethodModel} {a : Api} (group : String)
    (ha : action? m.bag = some a) (hmarked : ¬ Marked frame.marker a.name) :
    methodSection frame group m = actionSection frame.files group m.bag a := by
  unfold methodSection
  rw [ha]
  simp only [skipped_eq, hmarked, decide_false, Bool.false_eq_true, if_false]

/-- The section of an action down to its path. -/
def actionOpening (group : String) (a : Api) (description : String) (bag : Bag) : String :=
  methodHeading group a ++ "<h4 class='method-description'>Description</h4>" ++ blockEnd ++
    description ++ blockEnd ++ "<h3 class='request-part'>Request</h3>" ++ blockEnd ++
    verbLine bag ++ pathLine a

/-- The section of an action below its path. -/
def actionRest (bag : Bag) (requests successes failures : String) : String :=
  paramSection "auth-params" "Auth Fields" (params bag "ApiAuth") ++
    paramSection "request-params" "Request Fields" (params bag "Param") ++
    requests ++ "<h3 class='response-part'>Response</h3>" ++ blockEnd ++
    paramSection "response-params" "Success Response Fields" (params bag "ApiSuccessParam") ++
    successes ++
    paramSection "response-params" "Failure Response Fields" (params bag "ApiFailParam") ++ failures

theorem actionSection_ok {files : References} {group : String} {bag : Bag} {a : Api} {s : String}
    (h : actionSection files group bag a = .ok s) :
    ∃ description rest, methodDescription files bag a = .ok description ∧
      s = actionOpening group a description bag ++ rest := by
  obtain ⟨description, hdescription, h⟩ := Outcome.bind_ok_iff.mp h
  obtain ⟨requests, -, h⟩ := Outcome.bind_ok_iff.mp h
  obtain ⟨successes, -, h⟩ := Outcome.bind_ok_iff.mp h
  obtain ⟨failures, -, h⟩ := Outcome.bind_ok_iff.mp h
  refine ⟨description, actionRest bag requests successes failures, hdescription, ?_⟩
  rw [← Except.ok.inj h]
  simp only [actionOpening, actionRest, String.append_assoc]

theorem methodHeading_ne_empty (group : String) (a : Api) : methodHeading group a ≠ "" := by
  have hhead : "<h2 class='api-method " ≠ "" := by decide
  unfold methodHeading
  simp only [ne_eq, String.append_eq_empty_iff, hhead, false_and, not_false_eq_true]

theorem actionSection_ne_empty {files : References} {group : String} {bag : Bag} {a : Api}
    {s : String} (h : actionSection files group bag a = .ok s) : s ≠ "" := by
  obtain ⟨description, rest, -, hs⟩ := actionSection_ok h
  rw [hs]
  unfold actionOpening
  simp only [ne_eq, String.append_eq_empty_iff, methodHeading_ne_empty, false_and,
    not_false_eq_true]

/-! ## Texts that are put together -/

theorem join_mapM_cons {α : Type} (f : α → Outcome String) (a : α) (as : List α) :
    String.join <$> (a :: as).mapM f
      = f a >>= fun s => (fun t => s ++ t) <$> String.join <$> as.mapM f := by
  rw [List.mapM_cons]
  cases f a with
  | error e => rfl
  | ok s =>
      cases as.mapM f with
      | error e => rfl
      | ok ss => exact congrArg Except.ok String.join_cons

/-- Members that write nothing may as well be taken away. -/
theorem join_mapM_filter {α : Type} {f : α → Outcome String} {keep : α → Bool} {as : List α}
    (h : ∀ a ∈ as, keep a = false → f a = .ok "") :
    String.join <$> (as.filter keep).mapM f = String.join <$> as.mapM f := by
  induction as with
  | nil => rfl
  | cons a as ih =>
      have hrest := ih fun b hb => h b (List.mem_cons_of_mem _ hb)
      cases hkeep : keep a with
      | true => rw [List.filter_cons_of_pos hkeep, join_mapM_cons, join_mapM_cons, hrest]
      | false =>
          rw [List.filter_cons_of_neg (by simp [hkeep]), join_mapM_cons, hrest,
            h a List.mem_cons_self hkeep]
          cases as.mapM f with
          | error e => rfl
          | ok ss => exact congrArg Except.ok String.empty_append.symm

/-! ## The text of a group -/

/-- The sections of methods enter the text of a group only as they are joined. -/
theorem groupSection_eq (frame : Frame) (g : MergedGroup MethodModel) :
    groupSection frame g = groupDescription frame.files g.description >>= fun description =>
      (String.join <$> g.methods.mapM (methodSection frame g.name)) >>= fun methods =>
        if g.description.isNone && g.auth.isEmpty && methods = "" then return ""
        else return groupHeading g.name ++ description ++ groupAuth g.auth ++
          "<hr class='group-hr'/>" ++ blockEnd ++ methods ++ "<hr class='method-hr'/>" ++
          blockEnd := by
  unfold groupSection
  simp only [bind_map_left]

/-- Methods that are left out write nothing. -/
theorem groupSection_pruneMethods (frame : Frame) (g : MergedGroup MethodModel) :
    groupSection frame (pruneMethods MethodModel.bag frame.marker g) = groupSection frame g := by
  have hmethods : String.join <$> (g.methods.filter fun m => !leftOut frame.marker m.bag).mapM
        (methodSection frame g.name)
      = String.join <$> g.methods.mapM (methodSection frame g.name) := by
    apply join_mapM_filter
    intro m _ hm
    exact methodSection_of_leftOut g.name (by simpa using hm)
  rw [groupSection_eq, groupSection_eq, ← hmethods]
  rfl

theorem groupSection_of_isBare (frame : Frame) {g : MergedGroup MethodModel}
    (h : isBare g = true) : groupSection frame g = .ok "" := by
  simp only [isBare, Bool.and_eq_true, Option.isNone_iff_eq_none, List.isEmpty_iff] at h
  obtain ⟨⟨hdescription, hauth⟩, hmethods⟩ := h
  unfold groupSection
  rw [hdescription, hauth, hmethods]
  rfl

/-- No method of a group is left out. -/
def Pruned (marker : String) (g : MergedGroup MethodModel) : Prop :=
  ∀ m ∈ g.methods, m.bag.Kinded ∧ leftOut marker m.bag = false

/-- A section is written for every method that is not left out. -/
theorem join_ne_empty {frame : Frame} {g : MergedGroup MethodModel}
    (hpruned : Pruned frame.marker g) (hsome : g.methods ≠ []) {sections : List String}
    (h : g.methods.mapM (methodSection frame g.name) = .ok sections) :
    String.join sections ≠ "" := by
  have hall := Outcome.mapM_ok_iff.mp h
  cases hmethods : g.methods with
  | nil => exact absurd hmethods hsome
  | cons m ms =>
      rw [hmethods] at hall
      obtain ⟨hkinded, hkept⟩ := hpruned m (hmethods ▸ List.mem_cons_self)
      obtain ⟨a, rest, htags, hmarked⟩ := exists_action_of_not_leftOut hkinded hkept
      cases hall with
      | @cons _ s _ ss hs _ =>
          rw [methodSection_of_action g.name (action?_of_tags htags) hmarked] at hs
          intro hempty
          rw [String.join_cons] at hempty
          exact actionSection_ne_empty hs (String.append_eq_empty_iff.mp hempty).1

/-- A group that is not bare is written as its chapter. -/
theorem groupSection_of_not_isBare {frame : Frame} {g : MergedGroup MethodModel}
    (hpruned : Pruned frame.marker g) (h : isBare g = false) :
    groupSection frame g = Chapter.text <$> chapterOf frame g := by
  unfold groupSection chapterOf
  cases groupDescription frame.files g.description with
  | error e => rfl
  | ok description =>
      cases hsections : g.methods.mapM (methodSection frame g.name) with
      | error e => rfl
      | ok sections =>
          -- The test on the text and the test on the group come to the same.
          have hshown : (g.description.isNone && g.auth.isEmpty &&
              decide (String.join sections = "")) = false := by
            cases hmethods : g.methods.isEmpty with
            | true =>
                rw [isBare, hmethods, Bool.and_true] at h
                rw [h, Bool.false_and]
            | false =>
                have hsome : g.methods ≠ [] := by simpa using hmethods
                have hne := join_ne_empty hpruned hsome hsections
                rw [decide_eq_false hne, Bool.and_false]
          show (if (g.description.isNone && g.auth.isEmpty &&
            decide (String.join sections = "")) = true then _ else _ : Outcome String) = _
          rw [hshown, if_neg Bool.false_ne_true]
          rfl

/-! ## The text of all groups -/

theorem pruned_of_mem_prune {marker : String} {groups : Entries (MergedGroup MethodModel)}
    (h : ∀ g ∈ Entries.values groups, ∀ m ∈ g.methods, m.bag.Kinded)
    {e : String × MergedGroup MethodModel} (he : e ∈ prune MethodModel.bag marker groups) :
    Pruned marker e.2 ∧ isBare e.2 = false := by
  obtain ⟨he, hbare⟩ := List.mem_filter.mp he
  obtain ⟨d, hd, rfl⟩ := List.mem_map.mp he
  refine ⟨?_, by simpa using hbare⟩
  intro m hm
  obtain ⟨hm, hkept⟩ := List.mem_filter.mp hm
  exact ⟨h d.2 (List.mem_map_of_mem (List.mem_filter.mp hd).1) m hm, by simpa using hkept⟩

/-- The handbook has one chapter for every group that is left, and nothing else. -/
theorem markdown_eq_chapters {frame : Frame} {groups : Entries (MergedGroup MethodModel)}
    (h : ∀ g ∈ Entries.values groups, ∀ m ∈ g.methods, m.bag.Kinded) :
    markdown frame groups = (fun cs => String.join (cs.map Chapter.text)) <$>
      (Entries.values (prune MethodModel.bag frame.marker groups)).mapM (chapterOf frame) := by
  let unmarked := groups.filter fun e => !decide (Marked frame.marker e.1)
  let sectionOf (e : String × MergedGroup MethodModel) : Outcome String := groupSection frame e.2
  have hskip : (fun e : String × MergedGroup MethodModel => !skipped frame.marker e.1)
      = fun e => !decide (Marked frame.marker e.1) :=
    funext fun e => congrArg not (skipped_eq frame.marker e.1)
  calc markdown frame groups
      = String.join <$> unmarked.mapM sectionOf := by
        unfold markdown
        simp only [hskip]
        rfl
    _ = String.join <$> (Entries.mapValues (pruneMethods MethodModel.bag frame.marker)
          unmarked).mapM sectionOf := by
        -- Taking methods away changes the text of no group.
        rw [Entries.mapValues, List.mapM_map]
        congr 1
        exact Outcome.mapM_congr fun e _ => (groupSection_pruneMethods frame e.2).symm
    _ = String.join <$> (prune MethodModel.bag frame.marker groups).mapM sectionOf := by
        -- Only now is it seen from a group alone that it has nothing to show.
        refine (join_mapM_filter ?_).symm
        intro e _ hbare
        exact groupSection_of_isBare frame (by simpa using hbare)
    _ = String.join <$> (prune MethodModel.bag frame.marker groups).mapM fun e =>
          Chapter.text <$> chapterOf frame e.2 := by
        congr 1
        refine Outcome.mapM_congr fun e he => ?_
        obtain ⟨hpruned, hbare⟩ := pruned_of_mem_prune h he
        exact groupSection_of_not_isBare hpruned hbare
    _ = (fun cs => String.join (cs.map Chapter.text)) <$>
          (Entries.values (prune MethodModel.bag frame.marker groups)).mapM (chapterOf frame) := by
        rw [Entries.values, List.mapM_map, Outcome.mapM_map_right, Functor.map_map]
        rfl

/-- What is left loses nothing more. -/
theorem prune_prune (bagOf : μ → Bag) (marker : String) (groups : Entries (MergedGroup μ)) :
    prune bagOf marker (prune bagOf marker groups) = prune bagOf marker groups := by
  -- What is left after pruning passes all three tests of pruning.
  have hmem : ∀ e ∈ prune bagOf marker groups, ¬ Marked marker e.1 ∧
      pruneMethods bagOf marker e.2 = e.2 ∧ isBare e.2 = false := by
    intro e he
    obtain ⟨he, hbare⟩ := List.mem_filter.mp he
    obtain ⟨d, hd, rfl⟩ := List.mem_map.mp he
    refine ⟨by simpa using (List.mem_filter.mp hd).2, ?_, by simpa using hbare⟩
    simp [pruneMethods]
  have hunmarked : (prune bagOf marker groups).filter (fun e => !decide (Marked marker e.1))
      = prune bagOf marker groups := by
    apply List.filter_eq_self.mpr
    intro e he
    simpa using (hmem e he).1
  have hmethods : Entries.mapValues (pruneMethods bagOf marker) (prune bagOf marker groups)
      = prune bagOf marker groups :=
    Entries.mapValues_eq_self fun e he => (hmem e he).2.1
  conv_lhs => rw [prune, hunmarked, hmethods]
  apply List.filter_eq_self.mpr
  intro e he
  simpa using (hmem e he).2.2

theorem kinded_prune {marker : String} {groups : Entries (MergedGroup MethodModel)}
    (h : ∀ g ∈ Entries.values groups, ∀ m ∈ g.methods, m.bag.Kinded) :
    ∀ g ∈ Entries.values (prune MethodModel.bag marker groups), ∀ m ∈ g.methods,
      m.bag.Kinded := by
  intro g hg m hm
  obtain ⟨e, he, rfl⟩ := List.mem_map.mp hg
  exact ((pruned_of_mem_prune h he).1 m hm).1

theorem chapterOf_ok {frame : Frame} {g : MergedGroup MethodModel} {c : Chapter}
    (h : chapterOf frame g = .ok c) :
    (∃ description, groupDescription frame.files g.description = .ok description ∧
      c.opening = groupHeading g.name ++ description ++ groupAuth g.auth ++
        "<hr class='group-hr'/>" ++ blockEnd) ∧
      List.Forall₂ (fun m s => methodSection frame g.name m = .ok s) g.methods c.sections := by
  obtain ⟨description, hdescription, h⟩ := Outcome.bind_ok_iff.mp h
  obtain ⟨sections, hsections, h⟩ := Outcome.bind_ok_iff.mp h
  obtain rfl := Except.ok.inj h
  exact ⟨⟨description, hdescription, rfl⟩, Outcome.mapM_ok_iff.mp hsections⟩

/-! ## Leaving out beforehand -/

/-- A handbook is written from what is not left out, and from nothing else: taking
the rest away beforehand changes neither the text nor whether there is one.  Every
group that is left then has a chapter, which starts with its heading. -/
theorem markdown_prune (frame : Frame) {groups : Entries (MergedGroup MethodModel)}
    (h : ∀ g ∈ Entries.values groups, ∀ m ∈ g.methods, m.bag.Kinded) :
    let left := prune MethodModel.bag frame.marker groups
    markdown frame left = markdown frame groups ∧
      markdown frame groups = (fun cs => String.join (cs.map Chapter.text)) <$>
        (Entries.values left).mapM (chapterOf frame) ∧
      ∀ g c, chapterOf frame g = .ok c → ∃ rest, c.text = groupHeading g.name ++ rest := by
  intro left
  refine ⟨?_, markdown_eq_chapters h, ?_⟩
  · rw [markdown_eq_chapters (kinded_prune h), markdown_eq_chapters h, prune_prune]
  · intro g c hc
    obtain ⟨⟨description, -, hopening⟩, -⟩ := chapterOf_ok hc
    rw [Chapter.text, hopening]
    simp only [String.append_assoc]
    exact ⟨_, rfl⟩

/-- A group of generated code with an auth tag, a group with a method of each
sort, and a group of which nothing remains; all names of generated code hold `auto`. -/
def draftGroups : Entries (MergedGroup MethodModel) :=
  let token : Param := ⟨"token", [.header], "", "", .null, false, []⟩
  let method (name : String) (bag : Bag) : MethodModel := ⟨name, bag, GroupInfo.empty⟩
  let action (name : String) : MethodModel :=
    method name [("Api", [.api ⟨name, "/" ++ name, "", "", false⟩])]
  [("autoshop", ⟨"autoshop", none, [("token", token)], [action "list"]⟩),
   ("shop", ⟨"shop", none, [], [method "helper" [], action "autolist", action "list"]⟩),
   ("drafts", ⟨"drafts", none, [], [method "helper" [], action "autolist"]⟩)]

theorem markdown_prune_draftGroups :
    let frame : Frame := ⟨"auto", References.none⟩
    let left := prune MethodModel.bag "auto" draftGroups
    (∀ g ∈ Entries.values draftGroups, ∀ m ∈ g.methods, m.bag.Kinded) ∧
      (left.map fun e => (e.1, e.2.methods.map MethodModel.name)) = [("shop", ["list"])] ∧
      markdown frame left = markdown frame draftGroups ∧
      markdown frame draftGroups = (fun cs => String.join (cs.map Chapter.text)) <$>
        (Entries.values left).mapM (chapterOf frame) := by
  intro frame left
  have hkinded : ∀ g ∈ Entries.values draftGroups, ∀ m ∈ g.methods, m.bag.Kinded := by decide
  obtain ⟨hsame, hchapters, -⟩ := markdown_prune frame hkinded
  exact ⟨hkinded, by decide +kernel, hsame, hchapters⟩

end Handbook
end Routebook

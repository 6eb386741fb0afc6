/-
  Routebook.Proofs.Handbook.Examples

  The examples of a method.  Each list of examples is written as one block for
  every example that has a text; the blocks are numbered without gaps, because
  the counter of the writer is one more than the number of blocks it has
  written (`exampleBlocks_ok_iff`).

  Whether there is anything written at all depends on the files: a file that is
  missing gives the empty text, but a file name that is too long, and data with
  an integer too long to be written, stop the handbook (`shows_iff`).
  `examples_numbered` puts this together for the section of a method.
-/
import Routebook.Proofs.Files.Places
import Routebook.Proofs.Handbook.Showing
import Routebook.Proofs.Tag.Breakage
import Routebook.Session.Basic

namespace Routebook.Handbook

open Session (referencePath)

/-! ## Lists of examples -/

/-- A list of examples: where its tags stand, and how it is headed. -/
structure ExampleList where
  kind : String
  style : String
  title : String

/-- The examples of a request. -/
def requestExamples : ExampleList := ⟨"ApiRequestExample", "request-example", "Request Example"⟩

/-- The examples of a response to a request that succeeds. -/
def successExamples : ExampleList :=
  ⟨"ApiSuccess", "api-success-example", "Success Response Example"⟩

/-- The examples of a response to a request that fails. -/
def failureExamples : ExampleList :=
  ⟨"ApiFail", "api-fail-example", "Failure Response Example"⟩

/-- A description has a text. -/
def Describes (files : References) (d : Description) (text : String) : Prop :=
  describe files d = .ok text

theorem shows_of_forall₂ {files : References} {ds : List Description} {texts : List String}
    (h : List.Forall₂ (Describes files) ds texts) : ∀ d ∈ ds, Shows files d := by
  induction h with
  | nil => exact fun _ hd => absurd hd List.not_mem_nil
  | cons htext _ ih => exact List.forall_mem_cons.mpr ⟨⟨_, htext⟩, ih⟩

namespace ExampleList

/-- The heading of a list. -/
def heading (l : ExampleList) : String :=
  "<h4 class='" ++ l.style ++ "'>" ++ l.title ++ "</h4>" ++ blockEnd

/-- The lines of one example: its heading with the number, and the text in a fence. -/
def blockLines (l : ExampleList) (text : String) (number : Nat) : List String :=
  ["<h5 class='" ++ l.style ++ "'>" ++ l.title ++ " " ++ toString number ++ "</h5>", "",
    "```", text, "```", "", ""]

/-- The blocks of the texts that are not empty, numbered from some number on. -/
def blocks (l : ExampleList) (start : Nat) (texts : List String) : List String :=
  ((texts.filter (· ≠ "")).zipIdx start).map fun p => "\n".intercalate (l.blockLines p.1 p.2)

/-- What is written of examples with given texts. -/
def written (l : ExampleList) (texts : List String) : String :=
  if texts = [] then "" else l.heading ++ String.join (l.blocks 1 texts)

/-- The examples of a bag are written with the texts that they have by some rule. -/
def IsWritten (l : ExampleList) (hasText : Description → String → Prop) (bag : Bag) (s : String) :
    Prop :=
  ∃ texts, List.Forall₂ hasText (descriptions bag l.kind) texts ∧ s = l.written texts

/-- A heading and a text in a fence, line by line. -/
theorem fenced_eq (heading text : String) :
    heading ++ blockEnd ++ "```\n" ++ text ++ "\n```" ++ blockEnd
      = "\n".intercalate [heading, "", "```", text, "```", "", ""] := by
  have hend : blockEnd = "\n" ++ "\n" := rfl
  have hopen : "```\n" = "```" ++ "\n" := rfl
  have hclose : "\n```" = "\n" ++ "```" := rfl
  simp only [hend, hopen, hclose, String.intercalate_cons_cons, String.intercalate_singleton,
    String.append_assoc, String.empty_append, String.append_empty]

theorem exampleBlock_eq (l : ExampleList) (number : Nat) (text : String) :
    exampleBlock l.style l.title number text = "\n".intercalate (l.blockLines text number) := by
  unfold exampleBlock blockLines
  exact fenced_eq _ text

theorem blocks_cons_of_empty (l : ExampleList) (start : Nat) (texts : List String) :
    l.blocks start ("" :: texts) = l.blocks start texts := by
  rw [blocks, List.filter_cons_of_neg (by simp), blocks]

theorem blocks_cons (l : ExampleList) (start : Nat) {text : String} (h : text ≠ "")
    (texts : List String) :
    l.blocks start (text :: texts)
      = exampleBlock l.style l.title start text :: l.blocks (start + 1) texts := by
  rw [blocks, List.filter_cons_of_pos (by simpa using h), List.zipIdx_cons, List.map_cons,
    exampleBlock_eq, blocks]

/-- The blocks that the writer makes, started with some number. -/
theorem exampleBlocks_ok_iff {files : References} (l : ExampleList) {number : Nat}
    {ds : List Description} {s : String} :
    exampleBlocks files l.style l.title number ds = .ok s ↔
      ∃ texts, List.Forall₂ (Describes files) ds texts ∧
        s = String.join (l.blocks number texts) := by
  -- The number goes up with every block that is written, and with nothing else.
  induction ds generalizing number s with
  | nil =>
      constructor
      · intro h
        exact ⟨[], .nil, (Except.ok.inj h).symm⟩
      · rintro ⟨texts, htexts, rfl⟩
        cases htexts
        rfl
  | cons d rest ih =>
      rw [exampleBlocks, Outcome.bind_ok_iff]
      constructor
      · rintro ⟨text, htext, h⟩
        split at h
        · next hempty =>
            subst hempty
            obtain ⟨texts, htexts, rfl⟩ := ih.mp h
            exact ⟨"" :: texts, .cons htext htexts, by rw [blocks_cons_of_empty]⟩
        · next hempty =>
            obtain ⟨more, hmore, h⟩ := Outcome.bind_ok_iff.mp h
            obtain ⟨texts, htexts, rfl⟩ := ih.mp hmore
            refine ⟨text :: texts, .cons htext htexts, ?_⟩
            rw [l.blocks_cons number hempty, String.join_cons]
            exact (Except.ok.inj h).symm
      · rintro ⟨texts, htexts, rfl⟩
        cases htexts with
        | @cons _ text _ texts htext htexts =>
            refine ⟨text, htext, ?_⟩
            split
            · next hempty =>
                subst hempty
                exact ih.mpr ⟨texts, htexts, by rw [blocks_cons_of_empty]⟩
            · next hempty =>
                rw [l.blocks_cons number hempty, String.join_cons]
                exact Outcome.bind_ok_iff.mpr ⟨_, ih.mpr ⟨texts, htexts, rfl⟩, rfl⟩

theorem exampleSection_ok_iff {files : References} (l : ExampleList) {bag : Bag} {s : String} :
    exampleSection files l.style l.title (descriptions bag l.kind) = .ok s ↔
      l.IsWritten (Describes files) bag s := by
  unfold exampleSection IsWritten written
  cases hds : descriptions bag l.kind with
  | nil =>
      constructor
      · intro h
        exact ⟨[], .nil, (Except.ok.inj h).symm⟩
      · rintro ⟨texts, htexts, rfl⟩
        cases htexts
        rfl
  | cons d rest =>
      -- With an example to write there is a heading, and the blocks follow it.
      rw [List.isEmpty_cons, if_neg Bool.false_ne_true, Outcome.bind_ok_iff]
      constructor
      · rintro ⟨s', hs', h⟩
        obtain ⟨texts, htexts, rfl⟩ := l.exampleBlocks_ok_iff.mp hs'
        refine ⟨texts, htexts, ?_⟩
        cases htexts
        exact (Except.ok.inj h).symm
      · rintro ⟨texts, htexts, rfl⟩
        refine ⟨_, l.exampleBlocks_ok_iff.mpr ⟨texts, htexts, rfl⟩, ?_⟩
        cases htexts
        rfl

end ExampleList

theorem actionSection_ok_iff {files : References} {group : String} {bag : Bag} {a : Api}
    {s : String} :
    actionSection files group bag a = .ok s ↔
      ∃ description requests successes failures, methodDescription files bag a = .ok description ∧
        requestExamples.IsWritten (Describes files) bag requests ∧
        successExamples.IsWritten (Describes files) bag successes ∧
        failureExamples.IsWritten (Describes files) bag failures ∧
        s = actionOpening group a description bag ++
          actionRest bag requests successes failures := by
  simp only [← ExampleList.exampleSection_ok_iff]
  constructor
  · intro h
    obtain ⟨description, hdescription, h⟩ := Outcome.bind_ok_iff.mp h
    obtain ⟨requests, hrequests, h⟩ := Outcome.bind_ok_iff.mp h
    obtain ⟨successes, hsuccesses, h⟩ := Outcome.bind_ok_iff.mp h
    obtain ⟨failures, hfailures, h⟩ := Outcome.bind_ok_iff.mp h
    refine ⟨description, requests, successes, failures, hdescription, hrequests, hsuccesses,
      hfailures, ?_⟩
    rw [← Except.ok.inj h]
    simp only [actionOpening, actionRest, String.append_assoc]
  · rintro ⟨description, requests, successes, failures, hdescription, hrequests, hsuccesses,
      hfailures, rfl⟩
    refine Outcome.bind_ok_iff.mpr ⟨description, hdescription, ?_⟩
    refine Outcome.bind_ok_iff.mpr ⟨requests, hrequests, ?_⟩
    refine Outcome.bind_ok_iff.mpr ⟨successes, hsuccesses, ?_⟩
    refine Outcome.bind_ok_iff.mpr ⟨failures, hfailures, congrArg Except.ok ?_⟩
    simp only [actionOpening, actionRest, String.append_assoc]

/-! ## Texts of descriptions -/

/-- The text of a description: the one shown for its data, or for the content of the file it
refers to; it is empty if there is no such file. -/
inductive Resolves (t : Tree) (base : Option Path) (d : Description) : String → Prop
  | data {text : String} (htype : d.type = .text) (htext : content d.value = .ok text) :
      Resolves t base d text
  | file {place : Place} {c : Content} (htype : d.type = .file)
      (hshort : d.value.hasLongInt = false)
      (hfile : t.lookup (referencePath base d.value.text) = .found place (.file c)) :
      Resolves t base d (formOfText c.textLenient)
  | noFile (htype : d.type = .file) (hshort : d.value.hasLongInt = false)
      (hname : t.lookup (referencePath base d.value.text) ≠ .tooLong)
      (hnone : ∀ place c, t.lookup (referencePath base d.value.text) ≠ .found place (.file c)) :
      Resolves t base d ""

/-- A description has no text: an integer in it is too long to be written, or it refers to a
file by a name that is too long. -/
def Unreadable (t : Tree) (base : Option Path) (d : Description) : Prop :=
  d.value.hasLongInt = true ∨
    d.type = .file ∧ t.lookup (referencePath base d.value.text) = .tooLong

theorem unreadable_of_tooLong {t : Tree} {base : Option Path} {name : String}
    (h : t.lookup (referencePath base name) = .tooLong) :
    Unreadable t base ⟨.string name, .file⟩ :=
  .inr ⟨rfl, by rwa [Value.text]⟩

theorem exists_content_iff {v : Value} :
    (∃ text, content v = .ok text) ↔ v.hasLongInt = false := by
  unfold content
  split
  · simp [Value.hasLongInt]
  · simp
  · cases hlong : v.hasLongInt with
    | true => simp
    | false =>
        simp only [Bool.false_eq_true, if_false, iff_true]
        split
        · exact ⟨_, rfl⟩
        · exact ⟨_, rfl⟩

theorem fileReference_eq (t : Tree) (base : Option Path) (text : String) :
    Session.fileReference t base text
      = match t.lookup (referencePath base text) with
        | .tooLong => .error .badPath
        | .found _ (.file c) => .ok (some c.textLenient)
        | _ => .ok none := by
  unfold Session.fileReference Tree.probe
  cases t.lookup (referencePath base text) with
  | found place node => cases node <;> rfl
  | _ => rfl

theorem describe_file {t : Tree} {base : Option Path} {d : Description} (htype : d.type = .file)
    (hshort : d.value.hasLongInt = false) :
    describe (Session.fileReference t base) d
      = match t.lookup (referencePath base d.value.text) with
        | .tooLong => .error .badPath
        | .found _ (.file c) => .ok (formOfText c.textLenient)
        | _ => .ok "" := by
  unfold describe
  simp only [htype, hshort, Bool.false_eq_true, if_false, fileReference_eq]
  cases t.lookup (referencePath base d.value.text) with
  | found place node => cases node <;> rfl
  | _ => rfl

/-- What is shown for a description is its text. -/
theorem describes_iff {t : Tree} {base : Option Path} {d : Description} {text : String} :
    Describes (Session.fileReference t base) d text ↔ Resolves t base d text := by
  unfold Describes
  constructor
  · intro h
    cases htype : d.type with
    | text =>
        unfold describe at h
        rw [htype] at h
        exact .data htype h
    | file =>
        cases hlong : d.value.hasLongInt with
        | true =>
            unfold describe at h
            rw [htype, hlong] at h
            exact absurd h nofun
        | false =>
            -- What the path leads to decides: a name that is too long, a file, or anything else.
            rw [describe_file htype hlong] at h
            split at h
            · exact absurd h nofun
            · next hfile =>
                obtain rfl := Except.ok.inj h
                exact .file htype hlong hfile
            · next hname hfile =>
                obtain rfl := Except.ok.inj h
                exact .noFile htype hlong hname hfile
  · rintro (⟨htype, htext⟩ | ⟨htype, hshort, hfile⟩ | ⟨htype, hshort, hname, hnone⟩)
    · unfold describe
      rw [htype]
      exact htext
    · rw [describe_file htype hshort, hfile]
    · rw [describe_file htype hshort]
      split
      · next htooLong => exact absurd htooLong hname
      · next hfile => exact absurd hfile (hnone _ _)
      · rfl

theorem Resolves.unique {t : Tree} {base : Option Path} {d : Description} {text text' : String}
    (h : Resolves t base d text) (h' : Resolves t base d text') : text = text' :=
  Except.ok.inj ((describes_iff.mpr h).symm.trans (describes_iff.mpr h'))

/-- What is written of a list of examples is given by their texts. -/
theorem ExampleList.IsWritten.eq_of_resolves {t : Tree} {base : Option Path} {l : ExampleList}
    {bag : Bag} {s : String} (h : l.IsWritten (Resolves t base) bag s) {texts : List String}
    (htexts : List.Forall₂ (Resolves t base) (descriptions bag l.kind) texts) :
    s = l.written texts := by
  obtain ⟨texts', htexts', rfl⟩ := h
  have hunique : Relator.RightUnique (Resolves t base) := fun _ _ _ h h' => h.unique h'
  rw [hunique.forall₂ htexts htexts']

/-- A description has a text unless it is unreadable. -/
theorem shows_iff {t : Tree} {base : Option Path} {d : Description} :
    Shows (Session.fileReference t base) d ↔ ¬ Unreadable t base d := by
  constructor
  -- Each way to a text rules out both reasons for having none.
  · rintro ⟨text, htext⟩ hunreadable
    cases describes_iff.mp htext with
    | data htype htext =>
        have hshort := exists_content_iff.mp ⟨text, htext⟩
        rcases hunreadable with hlong | ⟨hfile, -⟩
        · exact absurd hlong (by simp [hshort])
        · exact absurd (htype.symm.trans hfile) nofun
    | file htype hshort hfile =>
        rcases hunreadable with hlong | ⟨-, htooLong⟩
        · exact absurd hlong (by simp [hshort])
        · exact absurd (hfile.symm.trans htooLong) nofun
    | noFile htype hshort hname hnone =>
        rcases hunreadable with hlong | ⟨-, htooLong⟩
        · exact absurd hlong (by simp [hshort])
        · exact hname htooLong
  · intro hreadable
    have hshort : d.value.hasLongInt = false :=
      Bool.eq_false_iff.mpr fun hlong => hreadable (.inl hlong)
    cases htype : d.type with
    | text =>
        obtain ⟨text, htext⟩ := exists_content_iff.mpr hshort
        exact ⟨text, describes_iff.mpr (.data htype htext)⟩
    | file =>
        have hname : t.lookup (referencePath base d.value.text) ≠ .tooLong := fun htooLong =>
          hreadable (.inr ⟨htype, htooLong⟩)
        by_cases hfile : ∃ place c,
            t.lookup (referencePath base d.value.text) = .found place (.file c)
        · obtain ⟨place, c, hfile⟩ := hfile
          exact ⟨_, describes_iff.mpr (.file htype hshort hfile)⟩
        · refine ⟨"", describes_iff.mpr (.noFile htype hshort hname fun place c hfound => ?_)⟩
          exact hfile ⟨place, c, hfound⟩

/-! ## The section of a method -/

/-- The examples in the section of an action.  The section is written unless a description that
it shows is unreadable; then it holds, behind what stands before them, the three lists of
examples.  In each of them every example that has a text stands in a fence of its own under its
number, the numbers run from one without a gap, and examples without a text, such as those that
refer to no file, leave no trace; the list has its heading if it has any example at all. -/
theorem examples_numbered {t : Tree} {base : Option Path} {marker group : String}
    {m : MethodModel} {a : Api} (haction : action? m.bag = some a)
    (hkept : ¬ Marked marker a.name) :
    ((∃ s, methodSection ⟨marker, Session.fileReference t base⟩ group m = .ok s) ↔
        ∀ d ∈ shownOfBag m.bag, ¬ Unreadable t base d) ∧
      ∀ s, methodSection ⟨marker, Session.fileReference t base⟩ group m = .ok s →
        ∃ description requests successes failures,
          methodDescription (Session.fileReference t base) m.bag a = .ok description ∧
          requestExamples.IsWritten (Resolves t base) m.bag requests ∧
          successExamples.IsWritten (Resolves t base) m.bag successes ∧
          failureExamples.IsWritten (Resolves t base) m.bag failures ∧
          s = actionOpening group a description m.bag ++
            actionRest m.bag requests successes failures := by
  have hresolves : Describes (Session.fileReference t base) = Resolves t base :=
    funext₂ fun d text => propext describes_iff
  rw [methodSection_of_action group haction hkept]
  refine ⟨?_, fun s hs => ?_⟩
  · rw [exists_actionSection_iff]
    exact forall₂_congr fun d _ => shows_iff
  · rw [← hresolves]
    exact actionSection_ok_iff.mp hs

/-- Examples of which the first has the empty text, and the third refers to no file. -/
def unevenMethod : MethodModel :=
  ⟨"info", [("Api", [.api ⟨"info", "/info", "1.0.0", "", false⟩]),
    ("ApiSuccess", [.description .success ⟨.string "", .text⟩,
      .description .success ⟨.string "a=1", .text⟩,
      .description .success ⟨.string "gone.txt", .file⟩,
      .description .success ⟨.string "b=2", .text⟩])], .empty⟩

/-- Two of four examples are written. -/
theorem examples_numbered_unevenMethod :
    let files := Session.fileReference ⟨["work"], []⟩ (some (Path.ofText "docs"))
    action? unevenMethod.bag = some ⟨"info", "/info", "1.0.0", "", false⟩ ∧ ¬ Marked "auto" "info" ∧
      ∃ s description, methodSection ⟨"auto", files⟩ "user" unevenMethod = .ok s ∧
        s = actionOpening "user" ⟨"info", "/info", "1.0.0", "", false⟩ description
            unevenMethod.bag ++
          actionRest unevenMethod.bag ""
            (successExamples.heading ++ String.join
              ["\n".intercalate (successExamples.blockLines "a=1" 1),
                "\n".intercalate (successExamples.blockLines "b=2" 2)]) "" := by
  intro files
  have haction : action? unevenMethod.bag = some ⟨"info", "/info", "1.0.0", "", false⟩ := rfl
  have hkept : ¬ Marked "auto" "info" := by decide
  obtain ⟨hwhen, hwhat⟩ :=
    @examples_numbered ⟨["work"], []⟩ (some (Path.ofText "docs")) "auto" "user" _ _ haction hkept
  -- The missing file resolves like the empty text; neither takes a number.
  have htexts : List.Forall₂ (Resolves ⟨["work"], []⟩ (some (Path.ofText "docs")))
      [⟨.string "", .text⟩, ⟨.string "a=1", .text⟩, ⟨.string "gone.txt", .file⟩,
        ⟨.string "b=2", .text⟩] ["", "a=1", "", "b=2"] :=
    .cons (.data rfl rfl) (.cons (.data rfl rfl) (.cons (.noFile rfl (by simp) nofun nofun)
      (.cons (.data rfl rfl) .nil)))
  have hreadable : ∀ d ∈ shownOfBag unevenMethod.bag,
      ¬ Unreadable ⟨["work"], []⟩ (some (Path.ofText "docs")) d := fun d hd =>
    shows_iff.mp (shows_of_forall₂ (htexts.imp fun _ _ h => describes_iff.mpr h) d hd)
  obtain ⟨s, hs⟩ := hwhen.mpr hreadable
  obtain ⟨description, requests, successes, failures, -, hrequests, hsuccesses, hfailures,
      hwritten⟩ :=
    hwhat s hs
  refine ⟨haction, hkept, s, description, hs, ?_⟩
  rw [hwritten, hrequests.eq_of_resolves .nil, hsuccesses.eq_of_resolves htexts,
    hfailures.eq_of_resolves .nil]
  rfl

/-- A method with one example, which refers to a file by a long name. -/
def longNameMethod : MethodModel :=
  ⟨"info", [("Api", [.api ⟨"info", "/info", "1.0.0", "", false⟩]),
    ("ApiSuccess", [.description .success ⟨.string Tree.longName, .file⟩])], .empty⟩

/-- There is no such file, and the method has no section at all. -/
theorem examples_longNameMethod :
    (∀ place c,
      (Tree.mk [] []).lookup (referencePath none Tree.longName) ≠ .found place (.file c)) ∧
      ¬ ∃ s, methodSection ⟨"auto", Session.fileReference ⟨[], []⟩ none⟩ "user" longNameMethod
        = .ok s := by
  have hlong : (Tree.mk [] []).lookup (referencePath none Tree.longName) = .tooLong :=
    Tree.lookup_longName _
  refine ⟨fun place c => by simp [hlong], ?_⟩
  have haction : action? longNameMethod.bag = some ⟨"info", "/info", "1.0.0", "", false⟩ := rfl
  have hshown : shownOfBag longNameMethod.bag = [⟨.string Tree.longName, .file⟩] := rfl
  rw [methodSection_of_action "user" haction (by decide), exists_actionSection_iff, hshown,
    List.forall_mem_singleton, shows_iff, not_not]
  exact unreadable_of_tooLong hlong

end Routebook.Handbook

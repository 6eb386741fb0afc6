/-
  Routebook.Proofs.Cache.RoundTrip

  What a directory keeps of a model.  Storing is one `put` of one file
  (`store_ok_iff`), and what is read under a key depends only on where the
  path of its file leads (`load_eq`).  So a model that was stored is read from
  the text it was written as (`load_store_of_fileName_eq`), and it comes back
  field by field as it was (`load_store`).
-/
import Routebook.Proofs.Files.Tree
import Routebook.Proofs.Json.Printer
import Routebook.Proofs.Json.Stored
import Routebook.Proofs.Model.RoundTrip
import Routebook.Proofs.Text.Utf8
import Routebook.Session.Basic

namespace Routebook

namespace Cache

/-! ## Names of files -/

theorem toList_fileName (key : String) :
    (fileName key).toList
      = (key.toList.map fun c => if isNameChar c then c else '_') ++ ".json".toList := by
  rw [fileName, String.toList_append, String.toList_ofList]

theorem plainName_fileName (key : String) : PlainName (fileName key) := by
  constructor
  · intro h
    have hlength := congrArg (fun s => s.toList.length) h
    simp only [toList_fileName, List.length_append] at hlength
    have hsuffix : ".json".toList.length = 5 := by decide
    have hup : "..".toList.length = 2 := by decide
    omega
  · intro h
    rw [toList_fileName] at h
    rcases List.mem_append.mp h with h | h
    · -- A character of the key is a name character or has become an underscore.
      obtain ⟨c, -, hc⟩ := List.mem_map.mp h
      by_cases hname : isNameChar c = true
      · rw [if_pos hname] at hc
        subst hc
        exact absurd hname (by decide)
      · rw [if_neg hname] at hc
        exact absurd hc (by decide)
    · exact absurd h (by decide)

/-! ## Storing and loading -/

/-- The file that holds a model. -/
def fileOf (c : ClassModel MethodModel) : Content := .bytes (encode c).toUTF8

theorem store_eq {t t₁ : Tree} {d : Path} (key : String) (c : ClassModel MethodModel)
    (hmake : t.makeWay d = .ok t₁) :
    store t d key c = (t₁.write (d.child (fileName key)) (fileOf c)).mapError fun e => (t₁, e) := by
  unfold store
  rw [hmake]
  rfl

/-- A model is stored by making the directory and putting its file there. -/
theorem store_ok_iff {t t' : Tree} {d : Path} {key : String} {c : ClassModel MethodModel} :
    store t d key c = .ok t' ↔
      ∃ t₁ place, t.makeWay d = .ok t₁ ∧ t₁.lookup d = .found place .directory ∧
        (fileName key).utf8ByteSize ≤ Tree.nameLimit ∧
        t₁.node? (place ++ [fileName key]) ≠ some .directory ∧
        t' = t₁.put (place ++ [fileName key]) (.file (fileOf c)) := by
  constructor
  · intro h
    -- Storing makes the way first and then writes one file in the directory at its end.
    cases hmake : t.makeWay d with
    | error r =>
        unfold store at h
        rw [hmake] at h
        exact absurd h (by simp [bind, Except.bind])
    | ok t₁ =>
        rw [store_eq key c hmake] at h
        cases hwrite : t₁.write (d.child (fileName key)) (fileOf c) with
        | error e => rw [hwrite] at h; exact absurd h (by simp [Except.mapError])
        | ok t₂ =>
            rw [hwrite] at h
            obtain rfl : t₂ = t' := Except.ok.inj h
            obtain ⟨place, hd, hlong, hfree, rfl⟩ :=
              (Tree.write_child_ok_iff (plainName_fileName key)).mp hwrite
            exact ⟨t₁, place, rfl, hd, hlong, hfree, rfl⟩
  · rintro ⟨t₁, place, hmake, hd, hlong, hfree, rfl⟩
    have hwrite : t₁.write (d.child (fileName key)) (fileOf c)
        = .ok (t₁.put (place ++ [fileName key]) (.file (fileOf c))) :=
      (Tree.write_child_ok_iff (plainName_fileName key)).mpr ⟨place, hd, hlong, hfree, rfl⟩
    rw [store_eq key c hmake, hwrite]
    rfl

/-- What cannot be stored leaves the files as making the directory left them,
and no other content could be stored there. -/
theorem store_error {t t' : Tree} {d : Path} {key : String} {c : ClassModel MethodModel}
    {e : Failure} (h : store t d key c = .error (t', e)) :
    t' = (t.makeWay d).after ∧
      (t.makeWay d = .error (t', e) ∨
        ∀ content, t'.write (d.child (fileName key)) content = .error e) := by
  -- Either the way could not be made, or the file could not be written at its end.
  cases hmake : t.makeWay d with
  | error r =>
      unfold store at h
      rw [hmake] at h
      obtain rfl : r = (t', e) := Except.error.inj h
      exact ⟨rfl, .inl rfl⟩
  | ok t₁ =>
      rw [store_eq key c hmake] at h
      cases hwrite : t₁.write (d.child (fileName key)) (fileOf c) with
      | ok t₂ => rw [hwrite] at h; exact absurd h (by simp [Except.mapError])
      | error e' =>
          rw [hwrite] at h
          obtain ⟨rfl, rfl⟩ := Prod.mk.inj (Except.error.inj h)
          exact ⟨rfl, .inr fun content => Tree.write_error hwrite content⟩

/-- What is read where a path leads. -/
def answer : Lookup → Outcome (Option (ClassModel MethodModel))
  | .found _ (.file content) => do decode (← content.text)
  | .found _ .directory => .error .isDirectory
  | .tooLong => .error .badPath
  | _ => .ok none

theorem load_eq (t : Tree) (d : Path) (key : String) :
    load t d key = answer (t.lookup (d.child (fileName key))) := by
  simp only [load, Tree.readText, Tree.read, Tree.probe]
  generalize t.lookup (d.child (fileName key)) = found
  cases found with
  | found place node => cases node <;> rfl
  | _ => rfl

/-- Stored data is read as the text that was written. -/
theorem text_stored (indent : Option Nat) (v : Value) :
    (Content.bytes (Json.print (.stored indent) v).toUTF8).text
      = .ok (Json.print (.stored indent) v) := by
  have hread : Text.ofBytes (Json.print (.stored indent) v).toUTF8
      = .ok (Json.print (.stored indent) v) :=
    Text.ofBytes_toUTF8_of_not_mem (Json.not_mem_print_stored _ _)
  show (Text.ofBytes _).mapError Failure.undecodable = _
  rw [hread]
  rfl

theorem text_fileOf (c : ClassModel MethodModel) : (fileOf c).text = .ok (encode c) :=
  text_stored _ _

theorem textLenient_fileOf (c : ClassModel MethodModel) : (fileOf c).textLenient = encode c :=
  Text.ofBytesLenient_of_ofBytes (Text.ofBytes_toUTF8_of_not_mem (Json.not_mem_print_stored _ _))

theorem answer_fileOf (place : Place) (c : ClassModel MethodModel) :
    answer (.found place (.file (fileOf c))) = decode (encode c) := by
  simp only [answer, text_fileOf, bind, Except.bind]

section Store

variable {t t' : Tree} {d : Path} {key : String} {c : ClassModel MethodModel}

/-- Under every key with the same file name the stored text is read. -/
theorem load_store_of_fileName_eq (h : store t d key c = .ok t') {other : String}
    (hname : fileName other = fileName key) : load t' d other = decode (encode c) := by
  obtain ⟨t₁, place, -, hd, hlong, hfree, rfl⟩ := store_ok_iff.mp h
  rw [load_eq, Tree.lookup_child_put hd hlong hfree (plainName_fileName other), if_pos hname,
    answer_fileOf]

/-- Keys with other file names are read as they were once the directory was made. -/
theorem load_store_of_fileName_ne (h : store t d key c = .ok t') {other : String}
    (hname : fileName other ≠ fileName key) :
    load t' d other = load (t.makeWay d).after d other := by
  obtain ⟨t₁, place, hmake, hd, hlong, hfree, rfl⟩ := store_ok_iff.mp h
  rw [hmake, load_eq, load_eq, Tree.lookup_child_put hd hlong hfree (plainName_fileName other),
    if_neg hname]
  rfl

/-- A directory in which something was stored needs no making. -/
theorem makeWay_of_store (h : store t d key c = .ok t') : t'.makeWay d = .ok t' := by
  obtain ⟨t₁, place, hmake, -, -, hfree, rfl⟩ := store_ok_iff.mp h
  exact Tree.makeWay_of_keeps hmake (Tree.keeps_put _ hfree)

end Store

/-! ## Models come back -/

/-- The text of a finite model is read as the data it was printed from, unless
the data goes beyond the limits of the reader. -/
theorem read?_encode {c : ClassModel MethodModel} (hfinite : c.isFinite = true)
    (hfits : Json.Dialect.stored.fits 0 (Model.classData c) = true) :
    Json.read? .stored (encode c) = some (Model.classData c) :=
  Json.read?_stored ((Model.isFinite_classData c).trans hfinite) hfits

/-- Where a handbook refers to what is kept of a model, it shows a document of the same data. -/
theorem formOfText_encode {c : ClassModel MethodModel} (hfinite : c.isFinite = true)
    (hfits : Json.Dialect.document.fits 0 (Model.classData c) = true) :
    Handbook.formOfText (encode c) = Json.print .document (Model.classData c) := by
  have hread : Json.read? .document (encode c) = some (Model.classData c) :=
    Json.read?_stored ((Model.isFinite_classData c).trans hfinite) hfits
  unfold Handbook.formOfText Handbook.jsonForm?
  rw [hread]
  rfl

/-- What a text holds is the model that was written into it, if the text is
read as the data it was printed from. -/
theorem decode_encode {c : ClassModel MethodModel} (hvalid : c.Valid)
    (hjson : Json.read? .stored (encode c) = some (Model.classData c)) :
    decode (encode c) = .ok (some c) := by
  simp only [decode, hjson, Model.ofClass_classData hvalid]

/-- A model that was stored comes back as it was, and where it cannot be stored
no content could be; a merged group comes back from the data that a report
writes for it.  The text of the model has to be read as the data it was
printed from, as it is within the limits of the reader (`read?_encode`). -/
theorem load_store {t : Tree} {d : Path} {key : String} {c : ClassModel MethodModel}
    {g : MergedGroup MethodModel} (hvalid : c.Valid) (hfinite : c.isFinite = true)
    (hjson : (Model.classData c).isFinite = true →
      Json.read? .stored (encode c) = some (Model.classData c))
    (hgroup : g.Valid) (hgroupFinite : g.isFinite = true) :
    (match store t d key c with
      | .ok t' => load t' d key = .ok (some c)
      | .error (t', e) => t.makeWay d = .error (t', e) ∨
          ∀ content, t'.write (d.child (fileName key)) content = .error e) ∧
      Model.ofMerged (Model.mergedData (Model.MergedGroup.finiteOnly g)) = .ok g := by
  refine ⟨?_, ?_⟩
  · cases h : store t d key c with
    | ok t' =>
        have hread := hjson ((Model.isFinite_classData c).trans hfinite)
        show load t' d key = .ok (some c)
        rw [load_store_of_fileName_eq h rfl, decode_encode hvalid hread]
    | error r => exact (store_error h).2
  · rw [Model.MergedGroup.finiteOnly_eq_self hgroupFinite, Model.ofMerged_mergedData hgroup]

/-- One tenth, the number nearest to the decimal. -/
def tenth : Double := .finite false ⟨4591870180066957722, by decide⟩

/-- A parameter with numbers of both types, nested values and rules in an order of their own. -/
def pageParam : Param :=
  ⟨"page", [.post, .get], "int", "the \x22page\x22", .array [.int (-1), .float tenth, .null], true,
    [("max", .float tenth), ("in", .object [("b", .bool true), ("a", .int 10)])]⟩

/-- A tag of each kind. -/
def shopTag : Kind → Tag
  | .api => .api ⟨"list", "/goods", "v1", "all\ngoods", false⟩
  | .description k =>
    .description k ⟨.object [("total", .float tenth), ("items", .array [])], .text⟩
  | .group => .group ⟨"Goods"⟩
  | .param k => .param k pageParam
  | .method => .method [.post, .get]
  | .circuitBreaker => .circuitBreaker ⟨tenth, some "cached"⟩
  | .context => .context "ctx"
  | .di => .di "store"
  | .injectParamsContext => .injectParamsContext ⟨"input", true, false, true⟩

/-- A group with all that a group may have. -/
def shopGroup : GroupInfo :=
  ⟨some ⟨"Goods"⟩, some ⟨.string "goods.md", .file⟩, [("page", pageParam)]⟩

/-- A method with a tag of every kind. -/
def shopMethod : MethodModel :=
  ⟨"list", Kind.catalog.map fun k => (k.name, [shopTag k]), shopGroup⟩

/-- A class with a grouped and an ungrouped method and a property. -/
def shopModel : ClassModel MethodModel :=
  ⟨"app.Shop", shopGroup, [("list", shopMethod), ("drop", .empty "drop")],
    [("items", ⟨"items", [("Di", [.di "store"])]⟩)]⟩

/-- The group of its methods. -/
def shopMerged : MergedGroup MethodModel :=
  ⟨"Goods", shopGroup.description, shopGroup.auth, [shopMethod, .empty "drop"]⟩

/-- A class with tags of all kinds comes back from a new directory. -/
theorem load_store_shopModel :
    (∃ t', store ⟨[], []⟩ ⟨.here, ["cache"]⟩ "app.Shop" shopModel = .ok t' ∧
      load t' ⟨.here, ["cache"]⟩ "app.Shop" = .ok (some shopModel)) ∧
    Model.ofMerged (Model.mergedData (Model.MergedGroup.finiteOnly shopMerged))
      = .ok shopMerged := by
  have hfinite : shopModel.isFinite = true := by decide
  have hfits : Json.Dialect.stored.fits 0 (Model.classData shopModel) = true := by decide
  obtain ⟨hload, hmerged⟩ := @load_store ⟨[], []⟩ ⟨.here, ["cache"]⟩ "app.Shop" shopModel shopMerged
    (by decide) hfinite (fun _ => read?_encode hfinite hfits) (by decide) (by decide)
  refine ⟨⟨_, rfl, hload⟩, hmerged⟩

end Cache
end Routebook

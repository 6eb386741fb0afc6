/-
  Routebook.Proofs.Cache.Misses

  Entries of a cache directory that hold no model.  A file may hold anything:
  no text, no data, data of another shape, or half of what was to be written.
  Reading such an entry is to be a miss, and it is, but for two sorts of
  content: bytes that are no text, and tags that break their kind
  (`hitOrMiss_load_iff`).  Whatever an entry holds, a model can be stored over
  it (`store_over`).
-/
import Routebook.Proofs.Cache.RoundTrip
import Routebook.Proofs.Files.Stock
import Routebook.Proofs.Model.Breakage

namespace Routebook

namespace Cache

/-- A valid model, or none. -/
def HitOrMiss (answer : Outcome (Option (ClassModel MethodModel))) : Prop :=
  ∃ found, answer = .ok found ∧ ∀ c ∈ found, c.Valid

/-- A text that, if it is data at all, holds no tag that breaks its kind. -/
def Harmless (content : Content) : Prop :=
  ∃ text, content.text = .ok text ∧ ∀ v, Json.read? .stored text = some v → ¬ v.classSites.Break

theorem not_hitOrMiss_error (e : Failure) : ¬ HitOrMiss (.error e) := by
  rintro ⟨found, hfound, -⟩
  exact absurd hfound nofun

/-! ## Texts -/

/-- A text is a valid model or a miss unless a tag in it breaks its kind, and then
reading it ends in a type error. -/
theorem hitOrMiss_decode_iff (text : String) :
    (HitOrMiss (decode text)
      ↔ ∀ v, Json.read? .stored text = some v → ¬ v.classSites.Break) ∧
      (HitOrMiss (decode text) ∨ decode text = .error .wrongType) := by
  unfold decode
  cases Json.read? .stored text with
  | none =>
      have hmiss : HitOrMiss (.ok none) := ⟨none, rfl, nofun⟩
      exact ⟨iff_of_true hmiss nofun, .inl hmiss⟩
  | some v =>
      -- Faults are a miss, so only a type error is left to go wrong.
      simp only [Option.some.injEq, forall_eq', ← Model.ofClass_wrongType_iff]
      cases hread : Model.ofClass v with
      | ok c =>
          have hhit : HitOrMiss (.ok (some c)) := by
            refine ⟨some c, rfl, ?_⟩
            rintro c' ⟨rfl⟩
            exact Model.valid_of_ofClass hread
          exact ⟨iff_of_true hhit nofun, .inl hhit⟩
      | faulty faults =>
          have hmiss : HitOrMiss (.ok none) := ⟨none, rfl, nofun⟩
          exact ⟨iff_of_true hmiss nofun, .inl hmiss⟩
      | wrongType =>
          exact ⟨iff_of_false (not_hitOrMiss_error _) fun hnot => hnot rfl, .inr rfl⟩

/-- The text of a file fails only on bytes that are no text. -/
theorem undecodable_of_text {content : Content} {e : Failure} (h : content.text = .error e) :
    ∃ why, e = .undecodable why := by
  cases content with
  | program p => exact absurd h nofun
  | bytes data =>
      have hread : (Text.ofBytes data).mapError Failure.undecodable = .error e := h
      cases hdata : Text.ofBytes data with
      | ok text =>
          rw [hdata] at hread
          exact absurd hread nofun
      | error why =>
          rw [hdata] at hread
          exact ⟨why, (Except.error.inj hread).symm⟩

/-! ## Entries -/

section Entry

variable {t : Tree} {d : Path} {key : String} {place : Place} {content : Content}

/-- An entry stands in the directory, under a name that is short enough. -/
theorem directory_of_entry
    (hentry : t.lookup (d.child (fileName key)) = .found place (.file content)) :
    ∃ above, t.lookup d = .found above .directory ∧
      (fileName key).utf8ByteSize ≤ Tree.nameLimit ∧
      t.node? (above ++ [fileName key]) = some (.file content) := by
  rw [Tree.lookup_child t d (plainName_fileName key)] at hentry
  -- Only a directory has a file under a name, and only a name that is short enough is looked for.
  cases hd : t.lookup d with
  | found above node =>
      rw [hd] at hentry
      cases node with
      | file other => exact absurd hentry nofun
      | directory =>
          have hname : t.entry above (fileName key) = .found place (.file content) := hentry
          unfold Tree.entry at hname
          split at hname
          · exact absurd hname nofun
          · next hlong =>
              refine ⟨above, rfl, Nat.not_lt.mp hlong, ?_⟩
              cases hnode : t.node? (above ++ [fileName key]) with
              | none =>
                  rw [hnode] at hname
                  exact absurd hname nofun
              | some node =>
                  rw [hnode] at hname
                  exact congrArg some (Lookup.found.inj hname).2
  | _ =>
      rw [hd] at hentry
      exact absurd hentry nofun

/-- Reading an entry is reading its text. -/
theorem load_of_entry
    (hentry : t.lookup (d.child (fileName key)) = .found place (.file content)) :
    load t d key = content.text.bind decode := by
  rw [load_eq, hentry]
  rfl

theorem load_of_text {text : String} (htext : content.text = .ok text)
    (hentry : t.lookup (d.child (fileName key)) = .found place (.file content)) :
    load t d key = decode text := by
  rw [load_of_entry hentry, htext]
  rfl

/-- Whatever an entry holds, a model can be stored over it, and is what is read then. -/
theorem store_over (hentry : t.lookup (d.child (fileName key)) = .found place (.file content))
    (c : ClassModel MethodModel) :
    ∃ t', store t d key c = .ok t' ∧ load t' d key = decode (encode c) := by
  obtain ⟨above, hd, hlong, hnode⟩ := directory_of_entry hentry
  have hfree : t.node? (above ++ [fileName key]) ≠ some .directory := by simp [hnode]
  have hstore : store t d key c = .ok (t.put (above ++ [fileName key]) (.file (fileOf c))) :=
    store_ok_iff.mpr ⟨t, above, Tree.makeWay_of_lookup hd, hd, hlong, hfree, rfl⟩
  exact ⟨_, hstore, load_store_of_fileName_eq hstore rfl⟩

/-- An entry is a valid model or a miss exactly if it is harmless: a text in which no
tag breaks its kind.  Otherwise reading it fails, since its bytes are no text or with
a type error.  Whatever it holds, a model can be stored over it. -/
theorem hitOrMiss_load_iff
    (hentry : t.lookup (d.child (fileName key)) = .found place (.file content)) :
    (HitOrMiss (load t d key) ↔ Harmless content) ∧
      (HitOrMiss (load t d key) ∨ load t d key = .error .wrongType ∨
        ∃ why, load t d key = .error (.undecodable why)) ∧
      ∀ c, ∃ t', store t d key c = .ok t' ∧ load t' d key = decode (encode c) := by
  rw [load_of_entry hentry, ← and_assoc]
  refine ⟨?_, store_over hentry⟩
  unfold Harmless
  cases htext : content.text with
  | error e =>
      obtain ⟨why, rfl⟩ := undecodable_of_text htext
      refine ⟨iff_of_false (not_hitOrMiss_error _) ?_, .inr (.inr ⟨why, rfl⟩)⟩
      rintro ⟨text, hok, -⟩
      exact absurd hok nofun
  | ok text =>
      obtain ⟨hiff, houtcome⟩ := hitOrMiss_decode_iff text
      simp only [Except.ok.injEq, exists_eq_left']
      exact ⟨hiff, houtcome.imp_right .inl⟩

end Entry

/-! ## Two entries that are no misses -/

/-- A directory with one entry. -/
def entryTree (content : Content) : Tree :=
  ⟨[], [(["cache"], .directory), (["cache", "m.A.json"], .file content)]⟩

/-- The directory of the entry. -/
def entryDirectory : Path := ⟨.here, ["cache"]⟩

theorem lookup_entryTree (content : Content) :
    (entryTree content).lookup (entryDirectory.child (fileName "m.A"))
      = .found ["cache", "m.A.json"] (.file content) := rfl

/-- A byte that begins no character is no text. -/
theorem text_badStart : (Content.bytes ⟨#[0xFF]⟩).text
    = .error (.undecodable (Text.refusal .badStart 0xFF 0 1)) := by
  have hbytes : (ByteArray.mk #[0xFF]).toList = [0xFF] := by
    simp [ByteArray.toList, ByteArray.toList.loop, ByteArray.get!, ByteArray.size]
  show (Text.ofBytes _).mapError Failure.undecodable = _
  rw [Text.ofBytes, hbytes]
  rfl

/-- A property with a number where the verbs of a tag should stand. -/
def numberForVerbs : Value :=
  .object [("class_name", .string "m.A"), ("methods", .object []),
    ("properties", .object [("p", .object [("name", .string "p"),
      ("annotations", .object [("Method",
        .array [.object [("kind", .string "Method"), ("allow", .int 5)]])])])])]

/-- The number is one fault among others in every report, but not here; and a byte that
begins no character is no text. -/
theorem not_hitOrMiss_entryTree :
    ¬ HitOrMiss (load (entryTree (.bytes ⟨#[0xFF]⟩)) entryDirectory "m.A") ∧
      ¬ HitOrMiss (load
        (entryTree (.bytes (Json.print (.stored (some 2)) numberForVerbs).toUTF8))
        entryDirectory "m.A") := by
  constructor
  · rw [load_of_entry (lookup_entryTree _), text_badStart]
    exact not_hitOrMiss_error _
  · have hread : Json.read? .stored (Json.print (.stored (some 2)) numberForVerbs)
        = some numberForVerbs := Json.read?_stored (by decide) (by decide)
    have hbreak : numberForVerbs.classSites.Break := Model.ofClass_wrongType_iff.mp rfl
    rw [load_of_text (text_stored _ _) (lookup_entryTree _), (hitOrMiss_decode_iff _).1]
    exact fun hharmless => hharmless _ hread hbreak

/-- A file that was cut off after the first character is a miss. -/
theorem hitOrMiss_load_cutOff :
    HitOrMiss (load (entryTree (.bytes "\x7b".toUTF8)) entryDirectory "m.A") := by
  have htext : (Content.bytes "\x7b".toUTF8).text = .ok "\x7b" := by
    show (Text.ofBytes _).mapError Failure.undecodable = _
    rw [Text.ofBytes_toUTF8_of_not_mem (by decide)]
    rfl
  have hread : Json.read? .stored "\x7b" = none := rfl
  refine (hitOrMiss_load_iff (lookup_entryTree (.bytes "\x7b".toUTF8))).1.mpr ⟨"\x7b", htext, ?_⟩
  simp [hread]

end Cache

end Routebook

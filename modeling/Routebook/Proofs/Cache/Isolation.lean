/-
  Routebook.Proofs.Cache.Isolation

  What a directory answers after many models have been stored in it.  Models
  are kept under the names of their files, so the directory answers as a
  memory keyed by these names does (`load_storeAll`).  Characters outside the
  file name alphabet become underscores; keys that differ in such characters
  only share a file, and the last one stored answers for both.  So keys are
  kept apart exactly if no two of them share a file name that fits
  (`keptApart_iff`).
-/
import Routebook.Proofs.Cache.RoundTrip

namespace Routebook

namespace Cache

/-! ## Runs of storing -/

/-- The files after models have been stored one after the other, each whether
it could be stored or not. -/
def storeAll (d : Path) : Tree → Entries (ClassModel MethodModel) → Tree
  | t, [] => t
  | t, (key, c) :: run => storeAll d (store t d key c).after run

/-- The models of a run that could be stored, in order. -/
def stored (d : Path) : Tree → Entries (ClassModel MethodModel) → Entries (ClassModel MethodModel)
  | _, [] => []
  | t, (key, c) :: run =>
    match store t d key c with
    | .ok t' => (key, c) :: stored d t' run
    | .error (t', _) => stored d t' run

/-- The files before the first model of a run is written: the directory is
made, as far as it can be, unless there is no model at all. -/
def before (d : Path) (t : Tree) (run : Entries (ClassModel MethodModel)) : Tree :=
  if run.isEmpty then t else (t.makeWay d).after

/-- What is kept, by the name of the file it is kept in. -/
def byFile (log : Entries (ClassModel MethodModel)) : Entries (ClassModel MethodModel) :=
  log.map fun e => (fileName e.1, e.2)

/-- What a memory holds after models were put into it: the last one under each key. -/
def remembered (log : Entries (ClassModel MethodModel)) (key : String) :
    Option (ClassModel MethodModel) :=
  Entries.get? key (Entries.ofPairs log)

/-- The answer for a model that is kept, or for none. -/
def answerOf (otherwise : Outcome (Option (ClassModel MethodModel))) :
    Option (ClassModel MethodModel) → Outcome (Option (ClassModel MethodModel))
  | some c => decode (encode c)
  | none => otherwise

section Run

variable {d : Path} {t t' : Tree} {key : String} {c : ClassModel MethodModel}

theorem remembered_cons (e : String × ClassModel MethodModel)
    (log : Entries (ClassModel MethodModel)) (key : String) :
    remembered (e :: log) key
      = (remembered log key).or (if key = e.1 then some e.2 else none) :=
  Entries.get?_ofPairs_cons key e log

theorem stored_cons_of_ok (h : store t d key c = .ok t') (run : Entries (ClassModel MethodModel)) :
    stored d t ((key, c) :: run) = (key, c) :: stored d t' run := by
  rw [stored, h]

theorem stored_cons_of_error {e : Failure} (h : store t d key c = .error (t', e))
    (run : Entries (ClassModel MethodModel)) : stored d t ((key, c) :: run) = stored d t' run := by
  rw [stored, h]

/-- After one model the directory needs no more making. -/
theorem makeWay_after_store (t : Tree) (d : Path) (key : String) (c : ClassModel MethodModel) :
    ((store t d key c).after.makeWay d).after = (store t d key c).after := by
  cases h : store t d key c with
  | ok t' =>
      show (t'.makeWay d).after = t'
      rw [makeWay_of_store h]
      rfl
  | error r =>
      obtain ⟨t', e⟩ := r
      obtain ⟨rfl, -⟩ := store_error h
      show ((t.makeWay d).after.makeWay d).after = (t.makeWay d).after
      rw [Tree.makeWay_after]

/-- What is read after one model: the model itself under keys of its file, and
under other keys what was read once the directory was made. -/
theorem load_after_store (t : Tree) (d : Path) (key : String) (c : ClassModel MethodModel)
    (other : String) :
    load (store t d key c).after d other
      = answerOf (load (t.makeWay d).after d other)
          (remembered (byFile (stored d t [(key, c)])) (fileName other)) := by
  cases h : store t d key c with
  | ok t' =>
      rw [stored_cons_of_ok h]
      show load t' d other = answerOf _ (remembered [(fileName key, c)] (fileName other))
      rw [remembered_cons]
      by_cases hname : fileName other = fileName key
      · rw [if_pos hname, load_store_of_fileName_eq h hname]
        rfl
      · rw [if_neg hname, load_store_of_fileName_ne h hname]
        rfl
  | error r =>
      obtain ⟨t', e⟩ := r
      rw [stored_cons_of_error h, (store_error h).1]
      rfl

/-- A directory answers as a memory keyed by file names does, and as it did
before the run for names under which nothing was stored. -/
theorem load_storeAll (d : Path) (t : Tree) (run : Entries (ClassModel MethodModel))
    (key : String) :
    load (storeAll d t run) d key
      = answerOf (load (before d t run) d key)
          (remembered (byFile (stored d t run)) (fileName key)) := by
  induction run generalizing t with
  | nil => rfl
  | cons e run ih =>
      obtain ⟨k, c⟩ := e
      -- The rest of the run finds the directory made.
      have hbefore : before d (store t d k c).after run = (store t d k c).after := by
        unfold before
        split
        · rfl
        · exact makeWay_after_store t d k c
      have hstep := load_after_store t d k c key
      show load (storeAll d (store t d k c).after run) d key = _
      rw [ih, hbefore, hstep]
      show _ = answerOf (load (t.makeWay d).after d key) _
      cases h : store t d k c with
      | ok t' =>
          rw [stored_cons_of_ok h, stored_cons_of_ok h]
          show answerOf (answerOf _ (remembered [(fileName k, c)] _))
              (remembered (byFile (stored d t' run)) _)
            = answerOf _ (remembered ((fileName k, c) :: byFile (stored d t' run)) _)
          rw [remembered_cons, remembered_cons]
          -- A later model under the same name answers before this one.
          cases remembered (byFile (stored d t' run)) (fileName key) <;> rfl
      | error r =>
          obtain ⟨t', e⟩ := r
          rw [stored_cons_of_error h, stored_cons_of_error h]
          rfl

/-! ## What a memory would answer -/

/-- What is stored was in the run, and its file name fits. -/
theorem mem_stored {e : String × ClassModel MethodModel} {run : Entries (ClassModel MethodModel)}
    (he : e ∈ stored d t run) : e ∈ run ∧ (fileName e.1).utf8ByteSize ≤ Tree.nameLimit := by
  induction run generalizing t with
  | nil => exact absurd he (by simp [stored])
  | cons first run ih =>
      obtain ⟨k, c⟩ := first
      cases h : store t d k c with
      | ok t' =>
          rw [stored_cons_of_ok h] at he
          rcases List.mem_cons.mp he with rfl | he
          · obtain ⟨_, _, -, -, hlong, -, -⟩ := store_ok_iff.mp h
            exact ⟨List.mem_cons_self, hlong⟩
          · exact ⟨List.mem_cons_of_mem _ (ih he).1, (ih he).2⟩
      | error r =>
          obtain ⟨t', e'⟩ := r
          rw [stored_cons_of_error h] at he
          exact ⟨List.mem_cons_of_mem _ (ih he).1, (ih he).2⟩

/-- If no other key has its file name, a key finds what a memory keyed by the
keys themselves holds. -/
theorem remembered_byFile {log : Entries (ClassModel MethodModel)}
    (h : ∀ e ∈ log, fileName e.1 = fileName key → e.1 = key) :
    remembered (byFile log) (fileName key) = remembered log key := by
  induction log with
  | nil => rfl
  | cons e log ih =>
      show remembered ((fileName e.1, e.2) :: byFile log) (fileName key) = _
      rw [remembered_cons, remembered_cons, ih fun e' he' => h e' (List.mem_cons_of_mem _ he')]
      have hname : fileName key = fileName e.1 ↔ key = e.1 :=
        ⟨fun hf => (h e List.mem_cons_self hf.symm).symm, congrArg fileName⟩
      simp only [hname]

end Run

/-! ## Keys that share a file -/

/-- Whatever was stored under keys of a set, the directory answers for each of
them as a memory keyed by the keys themselves does. -/
def KeptApart (keys : String → Prop) : Prop :=
  ∀ (d : Path) (t : Tree) (run : Entries (ClassModel MethodModel)) (key : String),
    (∀ e ∈ run, keys e.1) → keys key →
      load (storeAll d t run) d key
        = answerOf (load (before d t run) d key) (remembered (stored d t run) key)

theorem keptApart_of_fileName {keys : String → Prop}
    (h : ∀ a b, keys a → keys b → (fileName a).utf8ByteSize ≤ Tree.nameLimit →
      fileName a = fileName b → a = b) : KeptApart keys := by
  intro d t run key hrun hkey
  rw [load_storeAll, remembered_byFile]
  intro e he hname
  obtain ⟨hmem, hlong⟩ := mem_stored he
  exact h e.1 key (hrun e hmem) hkey hlong hname

section Shared

variable {d : Path} {t t' : Tree} {a b : String} {c : ClassModel MethodModel}

/-- What was stored once can be stored again, under any key of the same file. -/
theorem exists_store_again (h : store t d a c = .ok t') (hname : fileName b = fileName a)
    (c' : ClassModel MethodModel) : ∃ t'', store t' d b c' = .ok t'' := by
  have hmake' := makeWay_of_store h
  obtain ⟨t₁, place, -, hd, hlong, hfree, rfl⟩ := store_ok_iff.mp h
  have hfile := Tree.node?_put_self (.file (fileOf c)) hfree
  refine ⟨_, store_ok_iff.mpr ⟨_, place, hmake', Tree.lookup_of_keeps (Tree.keeps_put _ hfree) hd,
    hname ▸ hlong, ?_, rfl⟩⟩
  rw [hname, hfile]
  simp

/-- Of two models in one file the second one answers for the key of the first. -/
theorem load_storeAll_pair (h : store t d a c = .ok t') (hname : fileName b = fileName a)
    (c' : ClassModel MethodModel) :
    load (storeAll d t [(a, c), (b, c')]) d a = decode (encode c') := by
  obtain ⟨t'', h'⟩ := exists_store_again h hname c'
  show load (store (store t d a c).after d b c').after d a = _
  rw [h]
  show load (store t' d b c').after d a = _
  rw [h']
  exact load_store_of_fileName_eq h' hname.symm

/-- Both models of such a pair are stored. -/
theorem stored_pair (h : store t d a c = .ok t') (hname : fileName b = fileName a)
    (c' : ClassModel MethodModel) :
    stored d t [(a, c), (b, c')] = [(a, c), (b, c')] := by
  obtain ⟨t'', h'⟩ := exists_store_again h hname c'
  rw [stored_cons_of_ok h, stored_cons_of_ok h', stored]

end Shared

/-- A class of which nothing but the name is known. -/
def bareModel (name : String) : ClassModel MethodModel := ⟨name, .empty, [], []⟩

theorem decode_encode_bareModel (name : String) :
    decode (encode (bareModel name)) = .ok (some (bareModel name)) := by
  have hvalid : (bareModel name).Valid := by
    refine ⟨⟨?_, ?_, ?_⟩, ?_, ?_⟩ <;> simp [bareModel, GroupInfo.empty]
  exact decode_encode hvalid (read?_encode rfl rfl)

theorem exists_store_here {key : String} (hlong : (fileName key).utf8ByteSize ≤ Tree.nameLimit)
    (c : ClassModel MethodModel) : ∃ t', store ⟨[], []⟩ ⟨.here, []⟩ key c = .ok t' := by
  refine ⟨_, store_ok_iff.mpr ⟨_, [], rfl, rfl, hlong, ?_, rfl⟩⟩
  simp [Tree.node?]

/-- Keys are kept apart exactly if no two of them share a file name that fits. -/
theorem keptApart_iff (keys : String → Prop) :
    KeptApart keys ↔
      ∀ a b, keys a → keys b → (fileName a).utf8ByteSize ≤ Tree.nameLimit →
        fileName a = fileName b → a = b := by
  refine ⟨fun h a b ha hb hlong hname => ?_, keptApart_of_fileName⟩
  -- Two classes, each stored under its own name: the second answers for the first.
  obtain ⟨t', hstore⟩ := exists_store_here hlong (bareModel a)
  have hpair := load_storeAll_pair hstore hname.symm (bareModel b)
  have hapart := h ⟨.here, []⟩ ⟨[], []⟩ [(a, bareModel a), (b, bareModel b)] a (by simp [ha, hb]) ha
  rw [hpair, stored_pair hstore hname.symm, decode_encode_bareModel] at hapart
  by_contra hne
  have hfirst : remembered [(a, bareModel a), (b, bareModel b)] a = some (bareModel a) := by
    rw [remembered_cons, remembered_cons, if_neg hne, if_pos rfl]
    rfl
  rw [hfirst] at hapart
  have hmodel : bareModel b = bareModel a :=
    Option.some.inj (Except.ok.inj (hapart.trans (decode_encode_bareModel a)))
  exact hne (congrArg ClassModel.className hmodel).symm

/-- Two classes whose names differ in a letter outside the alphabet share a file. -/
theorem load_storeAll_umlauts :
    load (storeAll ⟨.here, ["cache"]⟩ ⟨[], []⟩
        [("m.Ä", bareModel "m.Ä"), ("m.Ö", bareModel "m.Ö")]) ⟨.here, ["cache"]⟩ "m.Ä"
      = .ok (some (bareModel "m.Ö")) ∧
    bareModel "m.Ö" ≠ bareModel "m.Ä" := by
  have hstore : ∃ t', store ⟨[], []⟩ ⟨.here, ["cache"]⟩ "m.Ä" (bareModel "m.Ä") = .ok t' :=
    ⟨_, rfl⟩
  obtain ⟨t', hstore⟩ := hstore
  refine ⟨?_, fun h => absurd (congrArg ClassModel.className h) (by decide)⟩
  rw [load_storeAll_pair hstore (by decide), decode_encode_bareModel]

end Cache
end Routebook

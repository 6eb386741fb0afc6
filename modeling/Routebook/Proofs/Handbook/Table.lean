/-
  Routebook.Proofs.Handbook.Table

  Tables that can be read back.  A table is a text of lines, and a line is a
  text of cells, each of them a list joined by one character.  Cutting a joined
  list at that character gives the list again exactly if no member holds the
  character (`notMem_of_length_splitOn`).

  What a table shows is free text.  So its lines are one row for each parameter,
  with five cells in a row, exactly if no name, type or description holds a bar
  or a line break (`formed_iff`); everything else in a table is harmless.
-/
import Routebook.Handbook.ParamTable
import Routebook.Proofs.Tag.Rules

namespace Routebook.Handbook

/-! ## Joined lists -/

section Joined

variable {α : Type} {x : α}

/-- Another character than the one that joins stands in the members only. -/
theorem notMem_intercalate_iff {y : α} (hne : y ≠ x) (ls : List (List α)) :
    y ∉ [x].intercalate ls ↔ ∀ l ∈ ls, y ∉ l := by
  induction ls with
  | nil => simp
  | cons l ls ih =>
      cases ls with
      | nil => simp
      | cons m ls =>
          rw [List.intercalate_cons_cons, List.mem_append, List.mem_append, List.forall_mem_cons,
            ← ih]
          simp [hne]

/-- One more member goes behind the others and one more separator. -/
theorem intercalate_append_singleton {ls : List (List α)} (hne : ls ≠ []) (l : List α) :
    [x].intercalate (ls ++ [l]) = [x].intercalate ls ++ x :: l := by
  induction ls with
  | nil => exact absurd rfl hne
  | cons m ls ih =>
      cases ls with
      | nil => simp
      | cons n ls =>
          have hrest := ih (List.cons_ne_nil n ls)
          rw [List.cons_append, List.intercalate_cons_of_ne_nil (by simp), hrest,
            List.intercalate_cons_cons]
          simp only [List.append_assoc]

variable [BEq α]

theorem one_le_length_splitOn (l : List α) : 1 ≤ (List.splitOn x l).length :=
  List.length_pos_iff.mpr (List.splitOn_ne_nil x l)

theorem length_le_length_flatMap (ls : List (List α)) :
    ls.length ≤ (ls.flatMap (List.splitOn x)).length := by
  induction ls with
  | nil => exact Nat.le_refl _
  | cons l ls ih =>
      have hone : 1 ≤ (List.splitOn x l).length := one_le_length_splitOn l
      rw [List.flatMap_cons, List.length_append, List.length_cons]
      omega

variable [LawfulBEq α]

/-- A joined list is cut into the pieces of its members. -/
theorem splitOn_intercalate_eq_flatMap {ls : List (List α)} (hne : ls ≠ []) :
    List.splitOn x ([x].intercalate ls) = ls.flatMap (List.splitOn x) := by
  induction ls with
  | nil => exact absurd rfl hne
  | cons l ls ih =>
      cases ls with
      | nil => simp
      | cons m ls =>
          have hrest := ih (List.cons_ne_nil m ls)
          rw [List.intercalate_cons_cons, List.append_assoc, List.singleton_append,
            List.splitOn_append_cons_self, hrest]
          rfl

/-- A list that is one piece does not hold the character. -/
theorem notMem_of_splitOn {l : List α} (h : (List.splitOn x l).length ≤ 1) : x ∉ l := by
  intro hmem
  obtain ⟨before, after, rfl⟩ := List.append_of_mem hmem
  have hbefore : 1 ≤ (List.splitOn x before).length := one_le_length_splitOn before
  have hafter : 1 ≤ (List.splitOn x after).length := one_le_length_splitOn after
  rw [List.splitOn_append_cons_self, List.length_append] at h
  omega

/-- As many pieces as members: then no member holds the character. -/
theorem notMem_of_length_splitOn {ls : List (List α)} (hne : ls ≠ [])
    (h : (List.splitOn x ([x].intercalate ls)).length = ls.length) : ∀ l ∈ ls, x ∉ l := by
  rw [splitOn_intercalate_eq_flatMap hne] at h
  clear hne
  induction ls with
  | nil => simp
  | cons l ls ih =>
      have hone : 1 ≤ (List.splitOn x l).length := one_le_length_splitOn l
      have hrest : ls.length ≤ (ls.flatMap (List.splitOn x)).length := length_le_length_flatMap ls
      rw [List.flatMap_cons, List.length_append, List.length_cons] at h
      have hl : x ∉ l := notMem_of_splitOn (by omega)
      have hls : ∀ m ∈ ls, x ∉ m := ih (by omega)
      exact List.forall_mem_cons.mpr ⟨hl, hls⟩

end Joined

/-! ## What a table should say -/

/-- A text without the blanks around it. -/
def trimmed (cs : List Char) : List Char :=
  ((cs.dropWhile Char.isWhitespace).reverse.dropWhile Char.isWhitespace).reverse

/-- A line is the row of a parameter.  Cut at the bars it has five cells, which hold its name,
its sources, its type, the mark of those that must be given, and its description, with blanks
around them and words in place of what is not given. -/
def IsRowOf (p : Param) (line : List Char) : Prop :=
  ∃ name sources type mark description : List Char,
    List.splitOn '|' line = [[], name, sources, type, mark, description, []] ∧
    trimmed name = trimmed p.name.toList ∧
    trimmed sources = trimmed (if p.sources = [] then "unrestricted"
      else ",".intercalate (p.sources.map Source.name)).toList ∧
    trimmed type = trimmed (if p.type = "" then "default" else p.type).toList ∧
    (Entries.get? "required" p.rules = some (.string "true") →
      trimmed mark = "<font color='red'>*</font>".toList) ∧
    (Entries.get? "required" p.rules ≠ some (.string "true") → trimmed mark = "-".toList) ∧
    trimmed description = trimmed (if p.description = "" then "-" else p.description).toList

/-- The lines of the table, up to the empty one behind it, are the header and one row for every
parameter, in order. -/
def Formed (ps : List Param) : Prop :=
  ∃ rows, List.splitOn '\n' (paramTable ps).toList
      = "| Field | Source | Type | Required | Description |".toList ::
        "| ---- | ---- | ---- | ---- | ---- |".toList :: (rows ++ [[], []]) ∧
    List.Forall₂ IsRowOf ps rows

/-- The free texts of a parameter hold no bar and no line break. -/
def Tame (p : Param) : Prop :=
  ∀ text ∈ [p.name, p.type, p.description], '|' ∉ text.toList ∧ '\n' ∉ text.toList

/-! ## Rows -/

/-- The pieces that bars join to a row. -/
def pieces (p : Param) : List (List Char) :=
  [] :: ((cells p).map (fun text => ' ' :: (text.toList ++ [' '])) ++ [[]])

theorem toList_row (p : Param) : (row p).toList = ['|'].intercalate (pieces p) := by
  simp [row, cells, pieces]

theorem notMem_name {d : Char} (hd : d = '|' ∨ d = '\n') (s : Source) : d ∉ s.name.toList := by
  rcases hd with rfl | rfl <;> cases s <;> decide

/-- A bar or a line break comes into a row from a free text only. -/
theorem notMem_pieces_iff {d : Char} (hd : d = '|' ∨ d = '\n') (p : Param) :
    (∀ piece ∈ pieces p, d ∉ piece) ↔
      ∀ text ∈ [p.name, p.type, p.description], d ∉ text.toList := by
  have hblank : d ≠ ' ' := by rcases hd with rfl | rfl <;> decide
  have hsources : d ∉ (if p.sources = [] then "unrestricted"
      else ",".intercalate (p.sources.map Source.name)).toList := by
    split
    · rcases hd with rfl | rfl <;> decide
    · have hcomma : d ≠ ',' := by rcases hd with rfl | rfl <;> decide
      rw [String.toList_intercalate]
      apply (notMem_intercalate_iff hcomma _).mpr
      intro text htext
      obtain ⟨name, hname, rfl⟩ := List.mem_map.mp htext
      obtain ⟨s, -, rfl⟩ := List.mem_map.mp hname
      exact notMem_name hd s
  have hmark : d ∉ (if isRequired p then requiredMark else "-").toList := by
    split <;> rcases hd with rfl | rfl <;> decide
  -- A word that stands for an empty text holds neither, like the empty text.
  have horElse (other : String) (hother : d ∉ other.toList) (text : String) :
      d ∉ (orElse text other).toList ↔ d ∉ text.toList := by
    unfold orElse
    split
    · next hempty => simp [hempty, hother]
    · rfl
  have htype := horElse "default" (by rcases hd with rfl | rfl <;> decide) p.type
  have hdescription := horElse "-" (by rcases hd with rfl | rfl <;> decide)
    p.description
  simp [pieces, cells, hblank, hsources, hmark, htype, hdescription]

/-! ## Reading a row -/

theorem trimmed_padded (cs : List Char) : trimmed (' ' :: (cs ++ [' '])) = trimmed cs := by
  have hblank : Char.isWhitespace ' ' = true := by decide
  unfold trimmed
  rw [List.dropWhile_cons_of_pos hblank, List.dropWhile_append]
  split
  · next hempty =>
      have hnil : cs.dropWhile Char.isWhitespace = [] := List.isEmpty_iff.mp hempty
      rw [hnil, List.dropWhile_cons_of_pos hblank, List.dropWhile_nil]
  · rw [List.reverse_append, List.reverse_singleton, List.singleton_append,
      List.dropWhile_cons_of_pos hblank]

/-- The row of a parameter with harmless texts can be read. -/
theorem isRowOf_row {p : Param} (h : ∀ piece ∈ pieces p, '|' ∉ piece) :
    IsRowOf p (row p).toList := by
  have hcut : List.splitOn '|' (row p).toList = pieces p := by
    rw [toList_row]
    exact List.splitOn_intercalate '|' h (by simp [pieces])
  refine ⟨_, _, _, _, _, hcut, trimmed_padded _, ?_, trimmed_padded _, ?_, ?_, trimmed_padded _⟩
  · rw [trimmed_padded]
    simp only [List.isEmpty_iff]
  · intro hrequired
    rw [trimmed_padded, if_pos ((isRequired_iff p).mpr hrequired)]
    rfl
  · intro hnot
    rw [trimmed_padded, if_neg fun hrequired => hnot ((isRequired_iff p).mp hrequired)]
    rfl

/-- A row that can be read has no bar in its texts. -/
theorem notMem_pieces_of_isRowOf {p q : Param} (h : IsRowOf q (row p).toList) :
    ∀ piece ∈ pieces p, '|' ∉ piece := by
  obtain ⟨name, sources, type, mark, description, hcut, -⟩ := h
  rw [toList_row] at hcut
  apply notMem_of_length_splitOn (by simp [pieces])
  rw [hcut]
  rfl

/-! ## Whole tables -/

/-- The lines that line breaks join to a table. -/
def tableLines (ps : List Param) : List (List Char) :=
  tableHeader.map String.toList ++ ps.map (fun p => (row p).toList) ++ [[]] ++ [[]]

theorem toList_paramTable {ps : List Param} (hne : ps ≠ []) :
    (paramTable ps).toList = ['\n'].intercalate (tableLines ps) := by
  have hrows : (tableHeader ++ ps.map row).map String.toList
      = tableHeader.map String.toList ++ ps.map (fun p => (row p).toList) := by
    rw [List.map_append, List.map_map]
    rfl
  have hheader : tableHeader.map String.toList ++ ps.map (fun p => (row p).toList) ≠ [] := by
    simp [tableHeader]
  -- The two line breaks behind the rows stand before two empty lines.
  unfold paramTable tableLines
  rw [if_neg (by simpa using hne), String.toList_append, String.toList_intercalate, hrows,
    intercalate_append_singleton (by simp), intercalate_append_singleton hheader,
    List.append_assoc]
  rfl

theorem notMem_tableLines_iff (ps : List Param) :
    (∀ line ∈ tableLines ps, '\n' ∉ line) ↔ ∀ p ∈ ps, '\n' ∉ (row p).toList := by
  have hheader : ∀ text ∈ tableHeader, '\n' ∉ text.toList := by decide
  unfold tableLines
  simp only [List.forall_mem_append, List.forall_mem_map, List.forall_mem_singleton,
    List.not_mem_nil, not_false_eq_true, and_true]
  exact ⟨fun h => h.2, fun h => ⟨hheader, h⟩⟩

/-- A bar or a line break in a row stands in a free text. -/
theorem tame_iff (p : Param) :
    Tame p ↔ (∀ piece ∈ pieces p, '|' ∉ piece) ∧ '\n' ∉ (row p).toList := by
  rw [toList_row, notMem_intercalate_iff (by decide), notMem_pieces_iff (.inl rfl),
    notMem_pieces_iff (.inr rfl)]
  unfold Tame
  exact forall₂_and

/-- Harmless texts give a table that can be read. -/
theorem formed_of_tame {ps : List Param} (hne : ps ≠ []) (h : ∀ p ∈ ps, Tame p) : Formed ps := by
  refine ⟨ps.map fun p => (row p).toList, ?_, ?_⟩
  · have hlines : ∀ line ∈ tableLines ps, '\n' ∉ line :=
      (notMem_tableLines_iff ps).mpr fun p hp => ((tame_iff p).mp (h p hp)).2
    rw [toList_paramTable hne, List.splitOn_intercalate '\n' hlines (by simp [tableLines])]
    simp [tableLines, tableHeader]
  · apply List.forall₂_map_right_iff.mpr
    apply List.forall₂_same.mpr
    intro p hp
    exact isRowOf_row ((tame_iff p).mp (h p hp)).1

/-- A table that can be read has harmless texts only. -/
theorem tame_of_formed {ps : List Param} (hne : ps ≠ []) (h : Formed ps) : ∀ p ∈ ps, Tame p := by
  obtain ⟨rows, hcut, hrows⟩ := h
  rw [toList_paramTable hne] at hcut
  -- There are as many lines as were joined, so none was cut any further.
  have hcount : rows.length = ps.length := hrows.length_eq.symm
  have hlines : ∀ line ∈ tableLines ps, '\n' ∉ line := by
    apply notMem_of_length_splitOn (by simp [tableLines])
    rw [hcut]
    simp [tableLines, tableHeader, hcount]
  have hsame : rows = ps.map fun p => (row p).toList := by
    rw [List.splitOn_intercalate '\n' hlines (by simp [tableLines])] at hcut
    simpa [tableLines, tableHeader] using hcut.symm
  subst hsame
  have hread : ∀ p ∈ ps, IsRowOf p (row p).toList :=
    List.forall₂_same.mp (List.forall₂_map_right_iff.mp hrows)
  intro p hp
  have hbreaks := (notMem_tableLines_iff ps).mp hlines p hp
  exact (tame_iff p).mpr ⟨notMem_pieces_of_isRowOf (hread p hp), hbreaks⟩

/-- A table is well formed exactly if the names, types and descriptions in it hold no bar and no
line break: then its lines are the header and one row for every parameter, each with five
cells. -/
theorem formed_iff (p : Param) (ps : List Param) : Formed (p :: ps) ↔ ∀ q ∈ p :: ps, Tame q :=
  ⟨tame_of_formed (List.cons_ne_nil p ps), formed_of_tame (List.cons_ne_nil p ps)⟩

/-- A description that ends with its line, and one with a bar, though the constructor takes
both. -/
theorem not_formed_lineEnd :
    let lineEnd : Param := ⟨"id", [], "", "user id\n", .null, false, []⟩
    let bar : Param := ⟨"id", [], "", "id | name", .null, false, []⟩
    Tag.make (.param .param) [("name", .string "id"), ("description", .string "user id\n")]
        = .ok (.param .param lineEnd) ∧
      Tag.make (.param .param) [("name", .string "id"), ("description", .string "id | name")]
        = .ok (.param .param bar) ∧
      ¬ Formed [lineEnd] ∧ ¬ Formed [bar] := by
  intro lineEnd bar
  have hwild {p : Param} (h : ¬ Tame p) : ¬ Formed [p] := fun hformed =>
    h (tame_of_formed (List.cons_ne_nil p []) hformed p List.mem_cons_self)
  refine ⟨rfl, rfl, hwild fun htame => ?_, hwild fun htame => ?_⟩
  · exact absurd (htame "user id\n" (by simp [lineEnd])).2 (by decide)
  · exact absurd (htame "id | name" (by simp [bar])).1 (by decide)

end Routebook.Handbook

/-
  Routebook.Proofs.Route.Pattern

  The pattern of a declared path.  Slashes at either end of a path do not count
  (`trimSlashes_padded`); what is left neither starts nor ends with one
  (`isBody_trimSlashes`).  It is cut at its last slash, and the part behind it
  at its last dot: both cuts are found from the end, so they are described by
  what follows them (`eq_of_cut`).

  `pattern_normal` puts this together: the shape that every pattern has, and
  the pattern of a path given by its parts.
-/
import Routebook.Proofs.Route.Target
import Routebook.Proofs.Text.Cut
import Mathlib.Data.List.DropRight

namespace Routebook.Route

open Text

/-! ## Slashes at the ends -/

theorem isSlash_iff {c : Char} : isSlash c = true ↔ c = '/' := beq_iff_eq

/-- Some slashes. -/
def slashes (n : Nat) : List Char := List.replicate n '/'

theorem dropWhile_slashes_append (n : Nat) (cs : List Char) :
    (slashes n ++ cs).dropWhile isSlash = cs.dropWhile isSlash :=
  List.dropWhile_append_of_pos fun _ hc => isSlash_iff.mpr (List.eq_of_mem_replicate hc)

theorem trimEnd_append_slashes (n : Nat) (cs : List Char) :
    trimEnd (cs ++ slashes n) = trimEnd cs := by
  have hreverse : (cs ++ slashes n).reverse = slashes n ++ cs.reverse := by
    rw [List.reverse_append, slashes, List.reverse_replicate]
  rw [trimEnd, hreverse, dropWhile_slashes_append, trimEnd]

/-- Slashes at either end of a path do not count. -/
theorem trimSlashes_padded (m n : Nat) (cs : List Char) :
    trimSlashes (slashes m ++ cs ++ slashes n) = trimSlashes cs := by
  rw [trimSlashes, List.append_assoc, dropWhile_slashes_append, List.dropWhile_append]
  split
  · next hall =>
      have hnone : (slashes n).dropWhile isSlash = [] := by
        have hdrop := dropWhile_slashes_append n []
        rwa [List.append_nil] at hdrop
      rw [hnone, trimSlashes, List.isEmpty_iff.mp hall]
  · rw [trimEnd_append_slashes, trimSlashes]

/-- Neither the first nor the last character is a slash. -/
def IsBody (cs : List Char) : Prop := cs.head? ≠ some '/' ∧ cs.getLast? ≠ some '/'

theorem getLast?_trimEnd (cs : List Char) : (trimEnd cs).getLast? ≠ some '/' := by
  intro hlast
  have hhead := List.head?_dropWhile_not isSlash cs.reverse
  rw [trimEnd, List.getLast?_reverse] at hlast
  rw [hlast] at hhead
  exact absurd hhead (by decide)

theorem trimEnd_eq_self {cs : List Char} (h : cs.getLast? ≠ some '/') : trimEnd cs = cs := by
  refine List.rdropWhile_eq_self_iff.mpr fun hne hslash => h ?_
  rw [List.getLast?_eq_some_getLast hne, isSlash_iff.mp hslash]

theorem trimEnd_eq_nil {cs : List Char} (h : trimEnd cs = []) : ∀ c ∈ cs, c = '/' := fun c hc =>
  isSlash_iff.mp (List.rdropWhile_eq_nil_iff.mp h c hc)

/-- A text that does not start with a slash keeps its start. -/
theorem head?_trimEnd {cs : List Char} (h : cs.head? ≠ some '/') :
    (trimEnd cs).head? = cs.head? := by
  obtain ⟨rest, hrest⟩ : trimEnd cs <+: cs := List.rdropWhile_prefix isSlash cs
  cases htrim : trimEnd cs with
  | nil =>
      cases cs with
      | nil => rfl
      | cons c cs =>
          have hc : c = '/' := trimEnd_eq_nil htrim c List.mem_cons_self
          exact absurd (congrArg some hc) h
  | cons c kept =>
      rw [← hrest, htrim]
      rfl

theorem isBody_trimSlashes (cs : List Char) : IsBody (trimSlashes cs) := by
  have hstart : (cs.dropWhile isSlash).head? ≠ some '/' := by
    intro hhead
    have hplain := List.head?_dropWhile_not isSlash cs
    rw [hhead] at hplain
    exact absurd hplain (by decide)
  refine ⟨?_, getLast?_trimEnd _⟩
  rw [trimSlashes, head?_trimEnd hstart]
  exact hstart

theorem trimSlashes_eq_self {cs : List Char} (h : IsBody cs) : trimSlashes cs = cs := by
  have hstart : cs.dropWhile isSlash = cs := by
    cases cs with
    | nil => rfl
    | cons c cs =>
        exact List.dropWhile_cons_of_neg fun hc => h.1 (congrArg some (isSlash_iff.mp hc))
  rw [trimSlashes, hstart, trimEnd_eq_self h.2]

/-! ## The last part of a path -/

theorem notSlash_of_notMem {name : List Char} (h : '/' ∉ name) :
    ∀ c ∈ name, (!isSlash c) = true := fun c hc => by
  simp [isSlash, ne_of_mem_of_not_mem hc h]

theorem lastPart_cut {before name : List Char} (h : '/' ∉ name) :
    lastPart (before ++ '/' :: name) = name := by
  rw [lastPart, takeWhile_cut (notSlash_of_notMem h) (by decide), List.reverse_reverse]

theorem beforeLastPart_cut {before name : List Char} (h : '/' ∉ name) :
    beforeLastPart (before ++ '/' :: name) = trimEnd before := by
  rw [beforeLastPart, dropWhile_cut (notSlash_of_notMem h) (by decide),
    List.dropWhile_cons_of_pos (by decide), trimEnd]

theorem lastPart_of_notMem {name : List Char} (h : '/' ∉ name) : lastPart name = name :=
  List.rtakeWhile_eq_self_iff.mpr (notSlash_of_notMem h)

theorem beforeLastPart_of_notMem {name : List Char} (h : '/' ∉ name) :
    beforeLastPart name = [] := by
  rw [beforeLastPart, dropWhile_uncut (notSlash_of_notMem h)]
  rfl

/-! ## Names without their extension -/

/-- What a name is without its extension: it is cut at its last dot, and not
cut if it has none or only dots stand before it. -/
def IsStem (name stem : List Char) : Prop :=
  (∃ ext, name = stem ++ '.' :: ext ∧ '.' ∉ ext ∧ ∃ c ∈ stem, c ≠ '.') ∨
    (stem = name ∧ ∀ before ext, name = before ++ '.' :: ext → '.' ∉ ext → ∀ c ∈ before, c = '.')

theorem stem_cut {before ext : List Char} (hext : '.' ∉ ext) :
    stem (before ++ '.' :: ext)
      = if before.all fun c => c == '.' then before ++ '.' :: ext else before := by
  rw [stem, dropWhile_cut (bne_of_notMem hext) (by decide)]
  simp

theorem stem_of_notMem {name : List Char} (h : '.' ∉ name) : stem name = name := by
  rw [stem, dropWhile_uncut (bne_of_notMem h)]

/-- A name is one thing without its extension. -/
theorem isStem_iff {name t : List Char} : IsStem name t ↔ t = stem name := by
  by_cases hdot : '.' ∈ name
  · obtain ⟨before, ext, rfl, hext⟩ := exists_cut hdot
    -- A name of dots before its ending has no ending: then the stem is the whole name.
    by_cases hdots : ∀ c ∈ before, c = '.'
    · rw [stem_cut hext, if_pos (by simpa using hdots)]
      constructor
      · rintro (⟨ext', hcut, hext', c, hc, hne⟩ | ⟨rfl, -⟩)
        · obtain ⟨rfl, -⟩ := eq_of_cut hext hext' hcut
          exact absurd (hdots c hc) hne
        · rfl
      · rintro rfl
        refine .inr ⟨rfl, fun before' ext' hcut hext' => ?_⟩
        obtain ⟨rfl, -⟩ := eq_of_cut hext hext' hcut
        exact hdots
    · rw [stem_cut hext, if_neg (by simpa using hdots)]
      constructor
      · rintro (⟨ext', hcut, hext', -⟩ | ⟨-, hall⟩)
        · exact (eq_of_cut hext hext' hcut).1.symm
        · exact absurd (hall before ext rfl hext) hdots
      · rintro rfl
        obtain ⟨c, hc, hne⟩ := not_forall₂.mp hdots
        exact .inl ⟨ext, rfl, hext, c, hc, hne⟩
  · rw [stem_of_notMem hdot]
    constructor
    · rintro (⟨ext, rfl, -⟩ | ⟨rfl, -⟩)
      · exact absurd (List.mem_append_right t List.mem_cons_self) hdot
      · rfl
    · rintro rfl
      refine .inr ⟨rfl, ?_⟩
      rintro before ext rfl
      exact absurd (List.mem_append_right before List.mem_cons_self) hdot

theorem stem_ne_nil {name : List Char} (h : name ≠ []) : stem name ≠ [] := by
  have hstem : IsStem name (stem name) := isStem_iff.mpr rfl
  rcases hstem with ⟨ext, -, -, c, hc, -⟩ | ⟨hself, -⟩
  · exact List.ne_nil_of_mem hc
  · rwa [hself]

theorem notMem_stem {name : List Char} (h : '/' ∉ name) : '/' ∉ stem name := by
  have hstem : IsStem name (stem name) := isStem_iff.mpr rfl
  rcases hstem with ⟨ext, hcut, -⟩ | ⟨hself, -⟩
  · intro hmem
    rw [hcut] at h
    exact h (List.mem_append_left _ hmem)
  · rwa [hself]

/-! ## Bodies -/

theorem isBody_of_notMem {cs : List Char} (h : '/' ∉ cs) : IsBody cs :=
  ⟨fun hhead => h (List.mem_of_head? hhead), fun hlast => h (List.mem_of_getLast? hlast)⟩

theorem isBody_append {before rest : List Char} (hb : before ≠ [] ∧ IsBody before)
    (hr : rest ≠ [] ∧ IsBody rest) : IsBody (before ++ '/' :: rest) := by
  obtain ⟨b, bs, rfl⟩ := List.exists_cons_of_ne_nil hb.1
  refine ⟨hb.2.1, ?_⟩
  rw [List.getLast?_append_cons, List.getLast?_cons_of_ne_nil hr.1]
  exact hr.2.2

/-- Parts that are joined by slashes make a body if each of them is one. -/
theorem isBody_intercalate {parts : List (List Char)} (hne : parts ≠ [])
    (h : ∀ s ∈ parts, s ≠ [] ∧ IsBody s) :
    ['/'].intercalate parts ≠ [] ∧ IsBody (['/'].intercalate parts) := by
  induction parts with
  | nil => exact absurd rfl hne
  | cons s parts ih =>
      obtain ⟨hs, hparts⟩ := List.forall_mem_cons.mp h
      cases parts with
      | nil =>
          rw [List.intercalate_singleton]
          exact hs
      | cons t parts =>
          have hrest := ih (List.cons_ne_nil t parts) hparts
          rw [List.intercalate_cons_cons, List.append_assoc, List.singleton_append]
          exact ⟨List.append_ne_nil_of_left_ne_nil hs.1 _, isBody_append hs hrest⟩

/-- Joining the first parts beforehand changes nothing. -/
theorem intercalate_append {parts : List (List Char)} (hne : parts ≠ [])
    (more : List (List Char)) :
    ['/'].intercalate (parts ++ more) = ['/'].intercalate (['/'].intercalate parts :: more) := by
  induction parts with
  | nil => exact absurd rfl hne
  | cons s parts ih =>
      cases parts with
      | nil => rw [List.intercalate_singleton, List.singleton_append]
      | cons t parts =>
          have hrest := ih (List.cons_ne_nil t parts)
          rw [List.cons_append] at hrest
          rw [List.cons_append, List.cons_append, List.intercalate_cons_cons, hrest,
            List.intercalate_cons_cons]
          cases more with
          | nil => rw [List.intercalate_singleton, List.intercalate_singleton]
          | cons u more =>
              rw [List.intercalate_cons_cons, List.intercalate_cons_cons, List.append_assoc,
                List.append_assoc, List.append_assoc, List.append_assoc, List.append_assoc]

/-! ## Patterns of bodies -/

/-- What is left of the last part of a path. -/
def ending (name : List Char) : List (List Char) :=
  if stem name = "index".toList then [] else [stem name]

theorem mem_ending {name s : List Char} (h : s ∈ ending name) : s = stem name := by
  unfold ending at h
  split at h
  · exact absurd h List.not_mem_nil
  · exact List.mem_singleton.mp h

theorem patternChars_of_nil {path : List Char} (h : trimSlashes path = []) :
    patternChars path = slashed [] := by
  rw [patternChars, h]
  rfl

/-- The pattern of a body of one part. -/
theorem patternChars_of_part {path name : List Char} (htrim : trimSlashes path = name)
    (hne : name ≠ []) (hname : '/' ∉ name) : patternChars path = slashed (ending name) := by
  rw [patternChars, htrim, beforeLastPart_of_notMem hname, lastPart_of_notMem hname, ending]
  simp only [if_neg hne, if_true]
  split
  · rfl
  · rw [slashed, List.intercalate_singleton]

/-- The pattern of a body that is cut at its last slash. -/
theorem patternChars_of_cut {path before name : List Char}
    (htrim : trimSlashes path = before ++ '/' :: name) (hname : '/' ∉ name)
    (hbefore : trimEnd before ≠ []) :
    patternChars path = slashed (trimEnd before :: ending name) := by
  have hne : before ++ '/' :: name ≠ [] := List.append_ne_nil_of_right_ne_nil _ (by simp)
  rw [patternChars, htrim, beforeLastPart_cut hname, lastPart_cut hname, ending]
  simp only [if_neg hne, if_neg hbefore]
  split
  · rw [slashed, List.intercalate_singleton]
  · rw [slashed, List.intercalate_cons_cons, List.intercalate_singleton, List.append_assoc]
    rfl

theorem isBody_ending {name s : List Char} (hne : name ≠ []) (hname : '/' ∉ name)
    (h : s ∈ ending name) : s ≠ [] ∧ IsBody s := by
  rw [mem_ending h]
  exact ⟨stem_ne_nil hne, isBody_of_notMem (notMem_stem hname)⟩

theorem isBody_slashed {parts : List (List Char)} (h : ∀ s ∈ parts, s ≠ [] ∧ IsBody s) :
    ∃ rest, slashed parts = '/' :: rest ∧ IsBody rest := by
  refine ⟨_, rfl, ?_⟩
  by_cases hne : parts = []
  · rw [hne]
    exact ⟨nofun, nofun⟩
  · exact (isBody_intercalate hne h).2

/-- Every pattern is a body behind a slash. -/
theorem patternChars_shape (path : List Char) :
    ∃ rest, patternChars path = '/' :: rest ∧ IsBody rest := by
  have hbody := isBody_trimSlashes path
  generalize htrim : trimSlashes path = body at hbody
  by_cases hslash : '/' ∈ body
  · obtain ⟨before, name, rfl, hname⟩ := exists_cut hslash
    have hne : name ≠ [] := by
      rintro rfl
      exact hbody.2 List.getLast?_concat
    have hstart : before.head? ≠ some '/' := by
      intro hhead
      refine hbody.1 ?_
      rw [List.head?_append, hhead]
      rfl
    -- The body does not start with a slash, so something is left before the last one.
    have hbefore : trimEnd before ≠ [] := by
      intro hnil
      cases before with
      | nil => exact hbody.1 rfl
      | cons b bs => exact hstart (congrArg some (trimEnd_eq_nil hnil b List.mem_cons_self))
    have hfirst : IsBody (trimEnd before) :=
      ⟨(head?_trimEnd hstart).symm ▸ hstart, getLast?_trimEnd before⟩
    rw [patternChars_of_cut htrim hname hbefore]
    exact isBody_slashed (List.forall_mem_cons.mpr
      ⟨⟨hbefore, hfirst⟩, fun s hs => isBody_ending hne hname hs⟩)
  · by_cases hne : body = []
    · rw [patternChars_of_nil (htrim.trans hne)]
      exact isBody_slashed nofun
    · rw [patternChars_of_part htrim hne hslash]
      exact isBody_slashed fun s hs => isBody_ending hne hslash hs

/-- The pattern of a path is that of its parts, with what is left of the last one. -/
theorem patternChars_of_parts {init : List (List Char)} {last : List Char} (m n : Nat)
    (h : ∀ s ∈ init ++ [last], s ≠ [] ∧ '/' ∉ s) :
    patternChars (slashes m ++ ['/'].intercalate (init ++ [last]) ++ slashes n)
      = slashed (init ++ ending last) := by
  have hbodies : ∀ s ∈ init ++ [last], s ≠ [] ∧ IsBody s := fun s hs =>
    ⟨(h s hs).1, isBody_of_notMem (h s hs).2⟩
  obtain ⟨hne, hlast⟩ := h last (by simp)
  have htrim : trimSlashes (slashes m ++ ['/'].intercalate (init ++ [last]) ++ slashes n)
      = ['/'].intercalate (init ++ [last]) := by
    rw [trimSlashes_padded, trimSlashes_eq_self (isBody_intercalate (by simp) hbodies).2]
  -- A single part has no slash to be cut at.
  by_cases hinit : init = []
  · rw [hinit, List.nil_append, List.intercalate_singleton] at htrim
    rw [hinit, List.nil_append, List.nil_append, List.intercalate_singleton]
    exact patternChars_of_part htrim hne hlast
  · obtain ⟨hsome, hends⟩ := isBody_intercalate hinit fun s hs =>
      hbodies s (List.mem_append_left _ hs)
    have hwhole := trimEnd_eq_self hends.2
    have hcut : ['/'].intercalate (init ++ [last]) = ['/'].intercalate init ++ '/' :: last := by
      rw [intercalate_append hinit, List.intercalate_cons_cons, List.intercalate_singleton,
        List.append_assoc, List.singleton_append]
    rw [patternChars_of_cut (htrim.trans hcut) hlast (hwhole.symm ▸ hsome), hwhole, slashed,
      slashed, intercalate_append hinit]

/-! ## Declared paths -/

/-- A path with more slashes in front and behind. -/
def padded (m n : Nat) (path : String) : String :=
  String.ofList (slashes m ++ path.toList ++ slashes n)

theorem patternOf_padded (m n : Nat) (path : String) :
    patternOf (padded m n path) = patternOf path := by
  have htrim : trimSlashes (padded m n path).toList = trimSlashes path.toList := by
    rw [padded, String.toList_ofList, trimSlashes_padded]
  simp only [patternOf, patternChars, htrim]

theorem patternOf_parts {init : List String} {last : String} (m n : Nat)
    (h : ∀ s ∈ init ++ [last], s ≠ "" ∧ '/' ∉ s.toList) {t : String}
    (ht : t.toList = stem last.toList) :
    patternOf (padded m n ("/".intercalate (init ++ [last])))
      = pathOf (if t = "index" then init else init ++ [t]) := by
  have hchars : ∀ s ∈ init.map String.toList ++ [last.toList], s ≠ [] ∧ '/' ∉ s := by
    intro s hs
    rw [← List.map_singleton (f := String.toList), ← List.map_append] at hs
    obtain ⟨part, hpart, rfl⟩ := List.mem_map.mp hs
    exact ⟨mt String.toList_eq_nil_iff.mp (h part hpart).1, (h part hpart).2⟩
  have hend : init.map String.toList ++ ending last.toList
      = (if t = "index" then init else init ++ [t]).map String.toList := by
    rw [ending, ← ht]
    simp only [String.toList_inj]
    split
    · rw [List.append_nil]
    · rw [List.map_append, List.map_singleton]
  rw [patternOf, padded, String.toList_ofList, String.toList_intercalate, List.map_append,
    List.map_singleton]
  exact (congrArg String.ofList (patternChars_of_parts m n hchars)).trans
    (hend ▸ ofList_slashed _)

/-- What the pattern of a path is.  It has one slash in front and none at the end, unless it is
that slash.  The pattern of a path that is made of parts, with any number of slashes around them,
is the path of these parts with the last one cut to its stem, which is left out if it is `index`;
a path without parts has the bare slash.  So slashes around a path do not change its pattern. -/
theorem pattern_normal :
    (∀ path : String, ∃ rest : List Char, (patternOf path).toList = '/' :: rest ∧
      rest.head? ≠ some '/' ∧ rest.getLast? ≠ some '/') ∧
    (∀ (init : List String) (last : String) (m n : Nat),
      (∀ s ∈ init ++ [last], s ≠ "" ∧ '/' ∉ s.toList) →
        ∃ t : String, (∀ u : String, IsStem last.toList u.toList ↔ u = t) ∧
          patternOf (padded m n ("/".intercalate (init ++ [last])))
            = pathOf (if t = "index" then init else init ++ [t])) ∧
    (∀ n : Nat, patternOf (padded n 0 "") = "/") ∧
    ∀ (path : String) (m n : Nat), patternOf (padded m n path) = patternOf path := by
  refine ⟨fun path => ?_, fun init last m n hparts => ?_, fun n => ?_, fun path m n =>
    patternOf_padded m n path⟩
  · obtain ⟨rest, hrest, hbody⟩ := patternChars_shape path.toList
    exact ⟨rest, by rw [patternOf, String.toList_ofList, hrest], hbody⟩
  · refine ⟨String.ofList (stem last.toList), fun u => ?_, ?_⟩
    · rw [isStem_iff, ← String.toList_inj, String.toList_ofList]
    · exact patternOf_parts m n hparts String.toList_ofList
  · rw [patternOf_padded]
    rfl

/-- Doubled slashes inside a path stay, and those before a dropped last part go. -/
example : patternOf "/a//b/.html/" = "/a//b/.html" ∧ patternOf "a//index.tar.gz" = "/a/index.tar" ∧
    patternOf "a//index.html" = "/a" := by decide

theorem pattern_normal_indexFile :
    (∀ s ∈ ["shop", "v1.2"] ++ ["index.html"], s ≠ "" ∧ '/' ∉ s.toList) ∧
      patternOf (padded 2 1 ("/".intercalate (["shop", "v1.2"] ++ ["index.html"])))
        = "/shop/v1.2" := by
  have hparts : ∀ s ∈ ["shop", "v1.2"] ++ ["index.html"], s ≠ "" ∧ '/' ∉ s.toList := by decide
  obtain ⟨t, ht, hpattern⟩ := pattern_normal.2.1 ["shop", "v1.2"] "index.html" 2 1 hparts
  have hindex : "index" = t := (ht "index").mp (isStem_iff.mpr (by decide))
  rw [hpattern, ← hindex]
  exact ⟨hparts, by decide⟩

end Routebook.Route

/-
  Routebook.Proofs.Route.Spelling

  A target depends on the segments of a class name and of a namespace, not on
  how they are written.  Dots and backslashes may separate segments in any
  mixture, repeatedly, and stand at either end (`Spelling`); cutting a name
  finds exactly the segments it is a spelling of (`spelling_iff`).  On lists of
  segments there are two cases: the namespace is a proper part in front of the
  name, or the name is kept (`target_of_segments`).
-/
import Routebook.Proofs.Route.Target

namespace Routebook.Route

/-! ## Spellings -/

/-- The ways to write segments: with any separators around them, and at least
one between two of them. -/
inductive Spelling : List (List Char) → List Char → Prop
  | gap {seps : List Char} (hseps : ∀ c ∈ seps, isSeparator c = true) : Spelling [] seps
  | segment {seps s rest : List Char} {parts : List (List Char)}
      (hseps : ∀ c ∈ seps, isSeparator c = true) (hs : IsSegment s)
      (hends : ∀ c ∈ rest.head?, isSeparator c = true) (hrest : Spelling parts rest) :
      Spelling (s :: parts) (seps ++ s ++ rest)

theorem segments_gap {seps : List Char} (hseps : ∀ c ∈ seps, isSeparator c = true)
    (cs : List Char) : segments (seps ++ cs) = segments cs := by
  induction seps with
  | nil => rfl
  | cons c seps ih =>
      obtain ⟨hc, hseps⟩ := List.forall_mem_cons.mp hseps
      rw [List.cons_append, segments_separator hc, ih hseps]

/-- Cutting finds the segments in every spelling of them. -/
theorem Spelling.segments_eq {parts : List (List Char)} {cs : List Char} (h : Spelling parts cs) :
    segments cs = parts := by
  induction h with
  | gap hseps =>
      have hcut := segments_gap hseps []
      rwa [List.append_nil] at hcut
  | segment hseps hs hends hrest ih =>
      rw [List.append_assoc, segments_gap hseps, segments_append hs hends, ih]

/-- One more separator in front. -/
theorem Spelling.cons_separator {parts : List (List Char)} {cs : List Char} {c : Char}
    (h : Spelling parts cs) (hc : isSeparator c = true) : Spelling parts (c :: cs) := by
  cases h with
  | gap hseps => exact .gap (List.forall_mem_cons.mpr ⟨hc, hseps⟩)
  | segment hseps hs hends hrest =>
      exact .segment (List.forall_mem_cons.mpr ⟨hc, hseps⟩) hs hends hrest

/-- A segment at the start. -/
theorem Spelling.append {s rest : List Char} {parts : List (List Char)} (h : Spelling parts rest)
    (hs : IsSegment s) (hends : ∀ c ∈ rest.head?, isSeparator c = true) :
    Spelling (s :: parts) (s ++ rest) :=
  @Spelling.segment [] s rest parts nofun hs hends h

/-- One more character at the start of the first segment. -/
theorem Spelling.cons_plain {s : List Char} {parts : List (List Char)} {c d : Char}
    {cs : List Char} (h : Spelling (s :: parts) (d :: cs)) (hc : isSeparator c = false)
    (hd : isSeparator d = false) : Spelling ((c :: s) :: parts) (c :: d :: cs) := by
  generalize hdcs : d :: cs = text at h
  cases h with
  | @segment seps _ rest _ hseps hs hends hrest =>
      -- The text starts with a plain character, so nothing stands before the segment.
      have hnone : seps = [] := by
        cases seps with
        | nil => rfl
        | cons e seps =>
            obtain rfl : d = e := (List.cons.inj hdcs).1
            exact absurd (hseps d List.mem_cons_self) (by simp [hd])
      subst hnone
      have hlonger : IsSegment (c :: s) :=
        ⟨List.cons_ne_nil c s, List.forall_mem_cons.mpr ⟨hc, hs.2⟩⟩
      exact hrest.append hlonger hends

/-- Every text is a spelling of the segments found in it. -/
theorem spelling_segments (cs : List Char) : Spelling (segments cs) cs := by
  fun_induction segments cs with
  | case1 => exact .gap nofun
  | case2 c cs hc ih => exact ih.cons_separator hc
  | case3 c hc =>
      have hlast : IsSegment [c] := ⟨List.cons_ne_nil c [], by simpa using hc⟩
      exact Spelling.append (.gap nofun) hlast nofun
  | case4 c hc d cs hd ih =>
      have hfirst : IsSegment [c] := ⟨List.cons_ne_nil c [], by simpa using hc⟩
      exact ih.append hfirst (by simpa using hd)
  | case5 c hc d cs hd hnone ih =>
      -- A plain character is part of a segment.
      rw [hnone] at ih
      cases ih with
      | gap hseps => exact absurd (hseps d List.mem_cons_self) hd
  | case6 c hc d cs hd s parts hsome ih =>
      rw [hsome] at ih ⊢
      exact ih.cons_plain (by simpa using hc) (by simpa using hd)

theorem spelling_iff {parts : List (List Char)} {cs : List Char} :
    Spelling parts cs ↔ segments cs = parts :=
  ⟨Spelling.segments_eq, fun h => h ▸ spelling_segments cs⟩

/-! ## Lists of segments -/

variable {n q : List (List Char)}

theorem targetSegments_append (hq : q ≠ []) {rest : List (List Char)} (hrest : rest ≠ []) :
    targetSegments (q ++ rest) q = rest := by
  have hlonger : q.length < (q ++ rest).length := by
    have hpos : 0 < rest.length := List.length_pos_iff.mpr hrest
    rw [List.length_append]
    omega
  have htake : (q ++ rest).take q.length = q := List.take_left
  rw [targetSegments, if_pos ⟨hq, hlonger, htake⟩]
  exact List.drop_left

theorem targetSegments_eq_self (h : q = [] ∨ ¬ q <+: n ∨ q = n) : targetSegments n q = n := by
  apply if_neg
  rintro ⟨hne, hlonger, htake⟩
  rcases h with hnil | hnot | heq
  · exact hne hnil
  · exact hnot (List.prefix_iff_eq_take.mpr htake.symm)
  · rw [heq] at hlonger
    exact absurd hlonger (Nat.lt_irrefl _)

/-! ## Names and namespaces -/

/-- A name is written in some segments. -/
def Spells (parts : List String) (name : String) : Prop :=
  Spelling (parts.map String.toList) name.toList

theorem map_toList_prefix_iff {p r : List String} :
    p.map String.toList <+: r.map String.toList ↔ p <+: r := by
  have hback (l : List String) : (l.map String.toList).map String.ofList = l := by
    simp [List.map_map, Function.comp_def]
  refine ⟨fun h => ?_, fun h => h.map _⟩
  have hmapped := h.map String.ofList
  rwa [hback, hback] at hmapped

/-- Where a class of a namespace leads.  However both are written, the segments of the namespace
are dropped if they are some, but not all, of the segments that the name starts with; if there
are none, or the name starts otherwise, or has no more of them, all of its segments are kept.
So a namespace that ends inside a segment drops nothing. -/
theorem target_of_segments {name lead : String} {n q : List String} (hname : Spells n name)
    (hlead : Spells q lead) :
    (∀ rest, q ≠ [] → rest ≠ [] → n = q ++ rest → targetOf name lead = pathOf rest) ∧
      (q = [] ∨ ¬ q <+: n ∨ q = n → targetOf name lead = pathOf n) ∧
      ∀ before after part more, more ≠ "" → q = before ++ [part] →
        n = before ++ (part ++ more) :: after → targetOf name lead = pathOf n := by
  have htarget : targetOf name lead
      = String.ofList (slashed (targetSegments (n.map String.toList) (q.map String.toList))) := by
    rw [targetOf, spelling_iff.mp hname, spelling_iff.mp hlead]
  have hkept : q = [] ∨ ¬ q <+: n ∨ q = n → targetOf name lead = pathOf n := by
    intro h
    have hchars : q.map String.toList = [] ∨ ¬ q.map String.toList <+: n.map String.toList ∨
        q.map String.toList = n.map String.toList := by
      rcases h with hnil | hnot | heq
      · exact .inl (by rw [hnil, List.map_nil])
      · exact .inr (.inl (map_toList_prefix_iff.not.mpr hnot))
      · exact .inr (.inr (by rw [heq]))
    rw [htarget, targetSegments_eq_self hchars, ofList_slashed]
  refine ⟨fun rest hq hrest hn => ?_, hkept, fun before after part more hmore hq hn => ?_⟩
  · have hqchars : q.map String.toList ≠ [] := mt List.map_eq_nil_iff.mp hq
    have hrestchars : rest.map String.toList ≠ [] := mt List.map_eq_nil_iff.mp hrest
    rw [htarget, hn, List.map_append, targetSegments_append hqchars hrestchars, ofList_slashed]
  · refine hkept (.inr (.inl ?_))
    rw [hq, hn, List.prefix_append_right_inj, List.cons_prefix_cons]
    rintro ⟨hpart, -⟩
    have hchars := congrArg String.toList hpart
    rw [String.toList_append, List.self_eq_append_right, String.toList_eq_nil_iff] at hchars
    exact hmore hchars

/-- A namespace written with another separator, and with one behind it. -/
theorem target_of_segments_mixed :
    Spells ["app", "admin", "User"] "app.admin\x5cUser" ∧ Spells ["app"] "\x5capp.." ∧
      targetOf "app.admin\x5cUser" "\x5capp.." = "/admin/User" := by
  have hname : Spells ["app", "admin", "User"] "app.admin\x5cUser" := spelling_iff.mpr (by decide)
  have hlead : Spells ["app"] "\x5capp.." := spelling_iff.mpr (by decide)
  exact ⟨hname, hlead,
    (target_of_segments hname hlead).1 ["admin", "User"] (by decide) (by decide) rfl⟩

end Routebook.Route

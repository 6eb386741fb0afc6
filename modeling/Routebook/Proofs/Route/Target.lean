/-
  Routebook.Proofs.Route.Target

  Targets tell actions apart.  A class name is cut into its segments and they
  are joined again by slashes; nothing of a name gets lost on the way as long
  as its segments hold no slash themselves (`eq_of_slashed`).  The only other
  loss is the namespace in front: it takes the same segments away from all the
  names that it is taken away from (`targetSegments_inj`), so names clash only
  if it leaves some of them whole.

  `targets_differ` puts this together for a whole table: no two of its routes
  lead to one place.
-/
import Routebook.Proofs.Entries
import Routebook.Route.Table
import Mathlib.Data.List.Nodup

namespace Routebook.Route

/-! ## Segments of a name -/

/-- A run of characters that separators can stand around. -/
def IsSegment (s : List Char) : Prop := s ≠ [] ∧ ∀ c ∈ s, isSeparator c = false

theorem segments_separator {c : Char} (hc : isSeparator c = true) (cs : List Char) :
    segments (c :: cs) = segments cs := by
  cases cs with
  | nil => simp [segments, hc]
  | cons d cs => rw [segments, if_pos hc]

/-- A segment ends where a separator or the end of the name follows. -/
theorem segments_append {s : List Char} (hs : IsSegment s) {rest : List Char}
    (hrest : ∀ c ∈ rest.head?, isSeparator c = true) :
    segments (s ++ rest) = s :: segments rest := by
  obtain ⟨hne, hplain⟩ := hs
  -- The induction is on the segment, whose last character decides where the cut is.
  induction s with
  | nil => exact absurd rfl hne
  | cons c s ih =>
      obtain ⟨hc, hplain⟩ := List.forall_mem_cons.mp hplain
      have hc : ¬ isSeparator c = true := by simp [hc]
      cases s with
      | nil =>
          cases rest with
          | nil => simp [segments, hc]
          | cons d rest =>
              have hd : isSeparator d = true := hrest d rfl
              rw [List.singleton_append, segments, if_neg hc]
              simp only [if_pos hd]
      | cons d s =>
          have hd : ¬ isSeparator d = true := by simp [hplain d List.mem_cons_self]
          have hnext : segments (d :: (s ++ rest)) = (d :: s) :: segments rest :=
            ih (by simp) hplain
          rw [List.cons_append, List.cons_append, segments, if_neg hc]
          simp only [if_neg hd, hnext]

/-- Segments that are joined by dots are found again. -/
theorem segments_intercalate {parts : List (List Char)} (h : ∀ s ∈ parts, IsSegment s) :
    segments (['.'].intercalate parts) = parts := by
  induction parts with
  | nil => rfl
  | cons s parts ih =>
      obtain ⟨hs, hparts⟩ := List.forall_mem_cons.mp h
      cases parts with
      | nil =>
          have hlast : segments (s ++ []) = s :: segments [] := segments_append hs (by simp)
          rw [List.append_nil, segments] at hlast
          rw [List.intercalate_singleton, hlast]
      | cons t parts =>
          have hdot : isSeparator '.' = true := by decide
          rw [List.intercalate_cons_cons, List.append_assoc, List.singleton_append,
            segments_append hs (by simp [hdot]), segments_separator hdot, ih hparts]

/-! ## Class names -/

/-- A name made of segments that are joined by dots, none of them with a slash in it. -/
def Dotted (name : String) : Prop :=
  ∃ parts : List String, name = ".".intercalate parts ∧
    ∀ s ∈ parts, s ≠ "" ∧ '/' ∉ s.toList ∧ '.' ∉ s.toList ∧ '\x5c' ∉ s.toList

/-- The segments of a name are what it is made of. -/
theorem Dotted.segments {name : String} (h : Dotted name) :
    name.toList = ['.'].intercalate (segments name.toList) ∧
      ∀ s ∈ segments name.toList, s ≠ [] ∧ '/' ∉ s := by
  obtain ⟨parts, rfl, hparts⟩ := h
  have hsegments : ∀ s ∈ parts.map String.toList, IsSegment s := by
    intro s hs
    obtain ⟨part, hpart, rfl⟩ := List.mem_map.mp hs
    obtain ⟨hne, -, hdot, hslash⟩ := hparts part hpart
    refine ⟨fun hnil => hne (String.toList_eq_nil_iff.mp hnil), ?_⟩
    intro c hc
    have hcdot : c ≠ '.' := ne_of_mem_of_not_mem hc hdot
    have hcslash : c ≠ '\x5c' := ne_of_mem_of_not_mem hc hslash
    simp [isSeparator, hcdot, hcslash]
  -- Parts without separators are what cutting at separators gives back.
  have hcut : Route.segments (".".intercalate parts).toList = parts.map String.toList := by
    rw [String.toList_intercalate]
    exact segments_intercalate hsegments
  rw [hcut]
  refine ⟨String.toList_intercalate, ?_⟩
  intro s hs
  obtain ⟨part, hpart, rfl⟩ := List.mem_map.mp hs
  exact ⟨(hsegments _ hs).1, (hparts part hpart).2.1⟩

theorem Dotted.eq_of_segments {a b : String} (ha : Dotted a) (hb : Dotted b)
    (h : Route.segments a.toList = Route.segments b.toList) : a = b := by
  have hchars : a.toList = b.toList := by rw [ha.segments.1, hb.segments.1, h]
  exact String.toList_inj.mp hchars

/-! ## The namespace in front -/

/-- A name lies strictly below a namespace: it starts with its segments and has more. -/
def Below (lead name : String) : Prop :=
  segments lead.toList <+: segments name.toList ∧
    (segments lead.toList).length < (segments name.toList).length

instance (lead name : String) : Decidable (Below lead name) :=
  inferInstanceAs (Decidable (_ ∧ _))

/-- Below the namespace, its segments are taken away. -/
theorem append_targetSegments {lead name : String} (h : Below lead name) :
    segments lead.toList ++ targetSegments (segments name.toList) (segments lead.toList)
      = segments name.toList := by
  obtain ⟨hstarts, hlonger⟩ := h
  have htake : (segments name.toList).take (segments lead.toList).length
      = segments lead.toList := (List.prefix_iff_eq_take.mp hstarts).symm
  unfold targetSegments
  split
  · rw [← htake, List.length_take, Nat.min_eq_left (Nat.le_of_lt hlonger)]
    exact List.take_append_drop _ _
  · next hnot =>
      -- Only an empty namespace is left where it is.
      have hnil : segments lead.toList = [] := by
        by_contra hne
        exact hnot ⟨hne, hlonger, htake⟩
      rw [hnil, List.nil_append]

theorem targetSegments_of_not_below {lead name : String} (h : ¬ Below lead name) :
    targetSegments (segments name.toList) (segments lead.toList) = segments name.toList := by
  apply if_neg
  rintro ⟨-, hlonger, htake⟩
  exact h ⟨List.prefix_iff_eq_take.mpr htake.symm, hlonger⟩

/-- What is left of two names tells them apart, unless only one of them lies below. -/
theorem targetSegments_inj {lead a b : String} (hsame : Below lead a ↔ Below lead b)
    (h : targetSegments (segments a.toList) (segments lead.toList)
      = targetSegments (segments b.toList) (segments lead.toList)) :
    segments a.toList = segments b.toList := by
  by_cases ha : Below lead a
  · have hb : Below lead b := hsame.mp ha
    rw [← append_targetSegments ha, ← append_targetSegments hb, h]
  · have hb : ¬ Below lead b := fun hb => ha (hsame.mpr hb)
    rwa [targetSegments_of_not_below ha, targetSegments_of_not_below hb] at h

theorem mem_of_mem_targetSegments {name lead : List (List Char)} {s : List Char}
    (h : s ∈ targetSegments name lead) : s ∈ name := by
  unfold targetSegments at h
  split at h
  · exact List.mem_of_mem_drop h
  · exact h

/-! ## Paths -/

/-- The path of some parts, with a slash in front. -/
def pathOf (parts : List String) : String := "/" ++ "/".intercalate parts

theorem ofList_slashed (parts : List String) :
    String.ofList (slashed (parts.map String.toList)) = pathOf parts := by
  rw [← String.toList_inj, String.toList_ofList, pathOf, String.toList_append,
    String.toList_intercalate]
  rfl

/-- Parts without slashes are found again in the path that they are joined to. -/
theorem eq_of_intercalate {p q : List (List Char)} (hp : ∀ s ∈ p, s ≠ [] ∧ '/' ∉ s)
    (hq : ∀ s ∈ q, s ≠ [] ∧ '/' ∉ s) (h : ['/'].intercalate p = ['/'].intercalate q) : p = q := by
  -- Cutting at the slashes gives the parts, and a lone empty part if there are none.
  have hcut {r : List (List Char)} (hr : ∀ s ∈ r, s ≠ [] ∧ '/' ∉ s) :
      List.splitOn '/' (['/'].intercalate r) = if r = [] then [[]] else r := by
    split
    · next hnil => rw [hnil]; rfl
    · next hne => exact List.splitOn_intercalate '/' (fun s hs => (hr s hs).2) hne
  have hlone {r : List (List Char)} (hr : ∀ s ∈ r, s ≠ [] ∧ '/' ∉ s) : r ≠ [[]] := by
    rintro rfl
    exact (hr [] List.mem_cons_self).1 rfl
  have hboth : (if p = [] then [[]] else p) = if q = [] then [[]] else q := by
    rw [← hcut hp, ← hcut hq, h]
  split at hboth
  · next hpnil =>
      split at hboth
      · next hqnil => rw [hpnil, hqnil]
      · exact absurd hboth.symm (hlone hq)
  · split at hboth
    · exact absurd hboth (hlone hp)
    · exact hboth

/-- A path and one more part are both found again in what they are joined to. -/
theorem eq_of_slashed {p q : List (List Char)} {m n : List Char}
    (hp : ∀ s ∈ p, s ≠ [] ∧ '/' ∉ s) (hq : ∀ s ∈ q, s ≠ [] ∧ '/' ∉ s) (hm : '/' ∉ m)
    (hn : '/' ∉ n) (h : slashed p ++ '/' :: m = slashed q ++ '/' :: n) : p = q ∧ m = n := by
  have hcut (r : List (List Char)) {l : List Char} (hl : '/' ∉ l) :
      List.splitOn '/' (slashed r ++ '/' :: l)
        = List.splitOn '/' (slashed r) ++ [l] := by
    rw [List.splitOn_append_cons_self, List.splitOn_eq_singleton hl]
  have hpieces : List.splitOn '/' (slashed p) ++ [m] = List.splitOn '/' (slashed q) ++ [n] := by
    rw [← hcut p hm, ← hcut q hn, h]
  obtain ⟨hpaths, hlast⟩ := List.append_inj' hpieces rfl
  have hslashed : slashed p = slashed q := by
    have hjoin := congrArg (['/'].intercalate ·) hpaths
    simpa only [List.intercalate_splitOn] using hjoin
  exact ⟨eq_of_intercalate hp hq (List.cons.inj hslashed).2, (List.cons.inj hlast).1⟩

/-! ## Whole tables -/

/-- Where a method of a class leads. -/
def address (lead : String) (action : String × String) : String :=
  targetOf action.1 lead ++ "/" ++ action.2

/-- The class and the name of every method with an action, in the order of the classes. -/
def actions (objects : Entries (ClassModel MethodModel)) : List (String × String) :=
  objects.flatMap fun e =>
    (e.2.methods.filter fun m => (Handbook.action? m.2.bag).isSome).map fun m => (e.1, m.1)

/-- The addresses of two methods are equal only if both are the same method. -/
theorem address_inj {lead : String} {a b : String × String} (ha : Dotted a.1) (hb : Dotted b.1)
    (hm : '/' ∉ a.2.toList) (hn : '/' ∉ b.2.toList) (hsame : Below lead a.1 ↔ Below lead b.1)
    (h : address lead a = address lead b) : a = b := by
  have hchars (x : String × String) : (address lead x).toList
      = slashed (targetSegments (segments x.1.toList) (segments lead.toList))
        ++ '/' :: x.2.toList := by
    simp [address, targetOf]
  have hparts {x : String} (hx : Dotted x) :
      ∀ s ∈ targetSegments (segments x.toList) (segments lead.toList), s ≠ [] ∧ '/' ∉ s :=
    fun s hs => hx.segments.2 s (mem_of_mem_targetSegments hs)
  have hlists := congrArg String.toList h
  rw [hchars, hchars] at hlists
  obtain ⟨hpath, hname⟩ := eq_of_slashed (hparts ha) (hparts hb) hm hn hlists
  have hclass : a.1 = b.1 := ha.eq_of_segments hb (targetSegments_inj hsame hpath)
  exact Prod.ext hclass (String.toList_inj.mp hname)

theorem map_target_table (lead : String) (objects : Entries (ClassModel MethodModel)) :
    (table lead objects).map Route.target = (actions objects).map (address lead) := by
  unfold table actions
  rw [List.map_flatMap, List.map_flatMap]
  refine List.flatMap_congr fun e _ => ?_
  unfold ofClass
  -- A method without an action gives no route and counts as no action either.
  induction e.2.methods with
  | nil => rfl
  | cons m rest ih =>
      cases haction : Handbook.action? m.2.bag with
      | none =>
          have hroute : ofMethod? (targetOf e.1 lead) m.1 m.2.bag = none := by
            simp [ofMethod?, haction]
          simp [hroute, haction, ih]
      | some a =>
          have hroute : ofMethod? (targetOf e.1 lead) m.1 m.2.bag = some
              ⟨(Handbook.verbs? m.2.bag).getD standardVerbs, patternOf a.path,
                address lead (e.1, m.1)⟩ := by
            simp [ofMethod?, haction, address]
          simp [hroute, haction, ih]

theorem mem_actions {objects : Entries (ClassModel MethodModel)} {a : String × String}
    (h : a ∈ actions objects) :
    a.1 ∈ Entries.keys objects ∧ ∃ c ∈ Entries.values objects, a.2 ∈ Entries.keys c.methods := by
  obtain ⟨e, he, ha⟩ := List.mem_flatMap.mp h
  obtain ⟨m, hm, rfl⟩ := List.mem_map.mp ha
  have hmethod : m ∈ e.2.methods := (List.mem_filter.mp hm).1
  exact ⟨List.mem_map_of_mem he, e.2, List.mem_map_of_mem he, List.mem_map_of_mem hmethod⟩

/-- Different classes and different methods of one class make different actions. -/
theorem nodup_actions {objects : Entries (ClassModel MethodModel)}
    (hclasses : (Entries.keys objects).Nodup)
    (hmethods : ∀ c ∈ Entries.values objects, (Entries.keys c.methods).Nodup) :
    (actions objects).Nodup := by
  refine List.nodup_flatMap.mpr ⟨?_, ?_⟩
  · intro e he
    have hnames : (Entries.keys e.2.methods).Nodup := hmethods e.2 (List.mem_map_of_mem he)
    -- The pairs of one class differ as soon as the names do.
    apply List.Nodup.of_map Prod.snd
    rw [List.map_map]
    exact (List.filter_sublist.map Prod.fst).nodup hnames
  · apply (List.pairwise_map.mp hclasses).imp
    intro d e hne a hd he
    obtain ⟨m, -, rfl⟩ := List.mem_map.mp hd
    obtain ⟨n, -, hpair⟩ := List.mem_map.mp he
    exact hne (Prod.mk.inj hpair).1.symm

/-- The routes of a table lead to different places.  They are those of the methods with an
action, one each; and no two targets are equal if the classes have different names made of
segments, no method has a slash in its name, and the namespace lies in front of all the names
or of none. -/
theorem targets_differ {lead : String} {objects : Entries (ClassModel MethodModel)}
    (hclasses : (Entries.keys objects).Nodup) (hdotted : ∀ name ∈ Entries.keys objects, Dotted name)
    (hmethods : ∀ c ∈ Entries.values objects,
      (Entries.keys c.methods).Nodup ∧ ∀ name ∈ Entries.keys c.methods, '/' ∉ name.toList)
    (hlead : (∀ name ∈ Entries.keys objects, Below lead name) ∨
      ∀ name ∈ Entries.keys objects, ¬ Below lead name) :
    (actions objects).Nodup ∧
      (table lead objects).map Route.target = (actions objects).map (address lead) ∧
      ((table lead objects).map Route.target).Nodup := by
  have hactions : (actions objects).Nodup := nodup_actions hclasses fun c hc => (hmethods c hc).1
  refine ⟨hactions, map_target_table lead objects, ?_⟩
  rw [map_target_table]
  apply hactions.map_on
  intro a ha b hb hsame
  obtain ⟨hclassA, c, hc, hnameA⟩ := mem_actions ha
  obtain ⟨hclassB, d, hd, hnameB⟩ := mem_actions hb
  have hbelow : Below lead a.1 ↔ Below lead b.1 := by
    rcases hlead with hall | hnone
    · exact iff_of_true (hall _ hclassA) (hall _ hclassB)
    · exact iff_of_false (hnone _ hclassA) (hnone _ hclassB)
  exact address_inj (hdotted _ hclassA) (hdotted _ hclassB) ((hmethods c hc).2 _ hnameA)
    ((hmethods d hd).2 _ hnameB) hbelow hsame

/-- A namespace in front of one of two names can make them clash. -/
example : targetOf "app.Foo" "app" = targetOf "Foo" "app" := by decide

/-- One method name in classes of one name, on two levels below the namespace. -/
theorem targets_differ_nestedObjects :
    let run : MethodModel := ⟨"run", [("Api", [.api ⟨"run", "/run", "1.0.0", "", false⟩])], .empty⟩
    let outer : ClassModel MethodModel := ⟨"app.Foo", .empty, [("run", run), ("halt", run)], []⟩
    let inner : ClassModel MethodModel := ⟨"app.sub.Foo", .empty, [("run", run)], []⟩
    let objects := [("app.Foo", outer), ("app.sub.Foo", inner)]
    (table "app" objects).map Route.target = ["/Foo/run", "/Foo/halt", "/sub/Foo/run"] ∧
      ((table "app" objects).map Route.target).Nodup := by
  intro run outer inner objects
  have hdotted : ∀ name ∈ Entries.keys objects, Dotted name := by
    intro name hname
    rcases List.mem_cons.mp hname with rfl | hname
    · exact ⟨["app", "Foo"], rfl, by decide⟩
    · obtain rfl := List.mem_singleton.mp hname
      exact ⟨["app", "sub", "Foo"], rfl, by decide⟩
  have hmethods : ∀ c ∈ Entries.values objects,
      (Entries.keys c.methods).Nodup ∧ ∀ name ∈ Entries.keys c.methods, '/' ∉ name.toList := by
    intro c hc
    rcases List.mem_cons.mp hc with rfl | hc
    · exact ⟨by decide, by decide⟩
    · obtain rfl := List.mem_singleton.mp hc
      exact ⟨by decide, by decide⟩
  have hlead : ∀ name ∈ Entries.keys objects, Below "app" name := by decide
  exact ⟨by decide, (targets_differ (by decide) hdotted hmethods (.inl hlead)).2.2⟩

end Routebook.Route

/-
  Routebook.Proofs.Handbook.References

  A handbook depends on files only through the descriptions that refer to
  them: where these files hold the same, the handbook is the same
  (`markdown_congr`).
-/
import Routebook.Handbook.Markdown
import Routebook.Proofs.Merge.Origins
import Routebook.Proofs.Outcome

namespace Routebook

/-- All files that some descriptions refer to are of a kind. -/
def Description.ReferTo (P : String → Prop) (ds : List Description) : Prop :=
  ∀ d ∈ ds, d.type = .file → P d.value.text

instance (P : String → Prop) [DecidablePred P] (ds : List Description) :
    Decidable (Description.ReferTo P ds) :=
  inferInstanceAs (Decidable (∀ d ∈ ds, d.type = .file → P d.value.text))

namespace Handbook

variable {files files' : References}

/-- In both a description shows the same. -/
def Alike (files files' : References) (ds : List Description) : Prop :=
  ∀ d ∈ ds, describe files d = describe files' d

theorem alike_of_referTo {ds : List Description}
    (h : Description.ReferTo (fun text => files text = files' text) ds) :
    Alike files files' ds := by
  intro d hd
  unfold describe
  cases htype : d.type with
  | text => rfl
  | file => rw [h d hd htype]

/-! ## One method -/

section Method

variable {bag : Bag} (h : Alike files files' bag.descriptions)
include h

theorem describe_of_mem_tags {kind : String} {k : DescriptionKind} {d : Description}
    (hd : .description k d ∈ Bag.tags bag kind) : describe files d = describe files' d := by
  unfold Bag.tags at hd
  cases hget : Entries.get? kind bag with
  | none =>
      rw [hget] at hd
      exact absurd hd List.not_mem_nil
  | some tags =>
      rw [hget, Option.getD_some] at hd
      refine h d (List.mem_flatMap.mpr ⟨(kind, tags), Entries.mem_of_get? hget, ?_⟩)
      exact List.mem_filterMap.mpr ⟨_, hd, rfl⟩

theorem exampleSection_congr (style title kind : String) :
    exampleSection files style title (descriptions bag kind)
      = exampleSection files' style title (descriptions bag kind) := by
  have hall : ∀ d ∈ descriptions bag kind, describe files d = describe files' d := by
    intro d hd
    obtain ⟨t, ht, hd⟩ := List.mem_filterMap.mp hd
    cases t with
    | description k d' =>
        obtain rfl := Option.some.inj hd
        exact describe_of_mem_tags h ht
    | _ => exact absurd hd (by simp)
  -- The number of a block depends on how many before it were written, so the induction is
  -- over all numbers.
  have hblocks : ∀ (ds : List Description), (∀ d ∈ ds, describe files d = describe files' d) →
      ∀ number, exampleBlocks files style title number ds
        = exampleBlocks files' style title number ds := by
    intro ds
    induction ds with
    | nil => exact fun _ _ => rfl
    | cons d rest ih =>
        intro hds number
        have hrest := ih fun d' hd' => hds d' (List.mem_cons_of_mem _ hd')
        unfold exampleBlocks
        simp only [hds d List.mem_cons_self, hrest]
  unfold exampleSection
  rw [hblocks _ hall]

theorem methodDescription_congr (a : Api) :
    methodDescription files bag a = methodDescription files' bag a := by
  unfold methodDescription Bag.first?
  split
  · next hfirst => exact describe_of_mem_tags h (List.mem_of_head? hfirst)
  · rfl

theorem actionSection_congr (group : String) (a : Api) :
    actionSection files group bag a = actionSection files' group bag a := by
  unfold actionSection
  rw [methodDescription_congr h, exampleSection_congr h, exampleSection_congr h,
    exampleSection_congr h]

end Method

/-! ## All groups -/

theorem groupSection_congr {marker : String} {g : MergedGroup MethodModel}
    (h : Alike files files' g.descriptions) :
    groupSection ⟨marker, files⟩ g = groupSection ⟨marker, files'⟩ g := by
  have hdescription : groupDescription files g.description
      = groupDescription files' g.description := by
    cases hg : g.description with
    | none => rfl
    | some d =>
        have hd : d ∈ g.descriptions :=
          List.mem_append_left _ (by rw [hg]; exact List.mem_cons_self)
        unfold groupDescription
        simp only [h d hd]
  -- The descriptions of a group are its own and those of its methods.
  have hmethods : g.methods.mapM (methodSection ⟨marker, files⟩ g.name)
      = g.methods.mapM (methodSection ⟨marker, files'⟩ g.name) := by
    refine Outcome.mapM_congr fun m hm => ?_
    have hbag : Alike files files' m.bag.descriptions := fun d hd =>
      h d (List.mem_append_right _ (List.mem_flatMap.mpr ⟨m, hm, hd⟩))
    unfold methodSection
    split
    · rfl
    · simp only [actionSection_congr hbag]
  unfold groupSection
  rw [hmethods]
  simp only [hdescription]

/-- Where the files that groups refer to hold the same, the handbook is the same. -/
theorem markdown_congr {marker : String} {groups : Entries (MergedGroup MethodModel)}
    (h : ∀ g ∈ Entries.values groups,
      Description.ReferTo (fun text => files text = files' text) g.descriptions) :
    markdown ⟨marker, files⟩ groups = markdown ⟨marker, files'⟩ groups := by
  unfold markdown
  simp only
  refine congrArg (· >>= _) (Outcome.mapM_congr fun e he => ?_)
  exact groupSection_congr (alike_of_referTo
    (h e.2 (List.mem_map_of_mem (List.mem_filter.mp he).1)))

end Handbook
end Routebook

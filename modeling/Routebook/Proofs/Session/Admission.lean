/-
  Routebook.Proofs.Session.Admission

  What a cache can keep.  Collected models are sound and in normal form
  whatever is done; a directory needs besides that they can be written into a
  text and read again, and that every name has a file of its own
  (`Cache.Suits`).  All of this is asked of what is found only, as the tags of
  the classes give it: completing keeps it (`keepable_admitted`).
-/
import Routebook.Proofs.Cache.Storable
import Routebook.Proofs.Handbook.References
import Routebook.Proofs.Session.Requests

namespace Routebook

open Steps

namespace Cache

/-- A directory that is empty at first, with a file for each of some names. -/
structure Suits (t : Tree) (d : Path) (keys : String → Prop) : Prop where
  vacant : ∃ place, t.Vacant d place
  apart : ∀ a b, keys a → keys b → fileName a = fileName b → a = b
  short : ∀ key, keys key → (fileName key).utf8ByteSize ≤ Tree.nameLimit

end Cache

/-- A collected model, with one more property. -/
def ClassModel.Collected (P : ClassModel MethodModel → Prop) (c : ClassModel MethodModel) : Prop :=
  c.Sound ∧ c.Valid ∧ P c

/-- A model that can be stored, if it has to be, and whose file references are of a kind, if
they count. -/
def ClassModel.Admitted (storing referring : Prop) (refers : String → Prop)
    (c : ClassModel MethodModel) : Prop :=
  (storing → c.Storable) ∧ (referring → Description.ReferTo refers c.descriptions)

section Keepable

open Merge

variable {P : ClassModel MethodModel → Prop}

/-- Collected models may be kept, if being completed leaves them their property. -/
theorem keepable_collected (hP : ∀ default objects,
    (∀ c ∈ Entries.values objects, c.Collected P) →
      ∀ c ∈ Entries.values (completed default objects), P c) :
    Keepable (ClassModel.Collected P) := by
  refine ⟨fun c hc => hc.1, fun default objects h c hc => ⟨?_, ?_, hP default objects h c hc⟩⟩
  · exact sound_completed (fun c hc => (h c hc).1) c hc
  · exact valid_completed (fun c hc => (h c hc).2.1) c hc

theorem keepable_admitted (storing referring : Prop) (refers : String → Prop) :
    Keepable (ClassModel.Collected (ClassModel.Admitted storing referring refers)) := by
  refine keepable_collected fun default objects h c hc => ⟨fun hstoring => ?_, fun hreferring => ?_⟩
  · exact storable_completed (fun c hc => (h c hc).1)
      (fun c hc => (h c hc).2.2.1 hstoring) c hc
  · obtain ⟨c₀, hc₀, rfl⟩ := mem_completed hc
    rw [descriptions_complete]
    exact (h c₀ hc₀).2.2.2 hreferring

theorem Cache.Suits.shelf {t : Tree} {d : Path} {keys : String → Prop} (h : Suits t d keys)
    (hP : ∀ c, P c → c.Storable) : Shelf keys (ClassModel.Collected P) :=
  ⟨h.apart, h.short, fun c hc => decode_encode_of_storable hc.2.1 (hP c hc.2.2)⟩

end Keepable

namespace Session

variable {keys keys' : String → Prop} {models models' : ClassModel MethodModel → Prop}
variable {t : Tree} {s : Session} {l : Ledger} {rs : List Request}

theorem FindsWithin.mono {path : String} (h : s.FindsWithin keys models path)
    (hkeys : ∀ key, keys key → keys' key) (hmodels : ∀ c, models c → models' c) :
    s.FindsWithin keys' models' path :=
  fun fs hfs f hf =>
    ⟨hkeys _ (h fs hfs f hf).key, fun c hc => hmodels c ((h fs hfs f hf).model c hc)⟩

/-- Whatever is found is collected. -/
theorem FindsWithin.collected {path : String} (hvalid : s.modules.Valid)
    (h : s.FindsWithin keys models path) :
    s.FindsWithin keys (ClassModel.Collected models) path := by
  intro fs hfs f hf
  refine ⟨(h fs hfs f hf).key, fun c hc => ?_⟩
  have hmodel := (h fs hfs f hf).model c hc
  unfold findings at hfs
  obtain ⟨cs, -, rfl⟩ := Outcome.map_ok_iff.mp hfs
  obtain ⟨k, -, rfl⟩ := List.mem_map.mp hf
  obtain ⟨hsound, hvalid⟩ := sound_valid_reflectModel (located_spec hvalid path).2 hc
  exact ⟨hsound, hvalid, hmodel⟩

/-- All that requests find along the way is collected. -/
theorem Ready.within_collected (hkeep : Keepable (ClassModel.Collected models))
    (h : Ready keys (ClassModel.Collected models) t s l) (hwithin : Within keys models s rs) :
    Within keys (ClassModel.Collected models) s rs := by
  induction rs generalizing s l with
  | nil => trivial
  | cons r rs ih =>
      have hfirst := hwithin.1.collected h.valid
      obtain ⟨s', hexec, -, hready, -⟩ := h.run hkeep r hfirst
      have hrest := hwithin.2
      rw [hexec] at hrest
      refine ⟨hfirst, ?_⟩
      rw [hexec]
      exact ih hready hrest

theorem Within.mono (h : Within keys models s rs) (hkeys : ∀ key, keys key → keys' key)
    (hmodels : ∀ c, models c → models' c) : Within keys' models' s rs := by
  induction rs generalizing s with
  | nil => trivial
  | cons r rs ih => exact ⟨h.1.mono hkeys hmodels, ih h.2⟩

theorem Within.and (h : Within keys models s rs) (h' : Within keys models' s rs) :
    Within keys (fun c => models c ∧ models' c) s rs := by
  induction rs generalizing s with
  | nil => trivial
  | cons r rs ih =>
      exact ⟨fun fs hfs f hf => ⟨(h.1 fs hfs f hf).key, fun c hc =>
        ⟨(h.1 fs hfs f hf).model c hc, (h'.1 fs hfs f hf).model c hc⟩⟩, ih h.2 h'.2⟩

theorem within_of_forall (hkeys : ∀ key, keys key) (hmodels : ∀ c, models c) :
    Within keys models s rs := by
  induction rs generalizing s with
  | nil => trivial
  | cons r rs ih => exact ⟨fun _ _ _ _ => ⟨hkeys _, fun c _ => hmodels c⟩, ih⟩

theorem within_append {more : List Request} :
    Within keys models s (rs ++ more) ↔
      Within keys models s rs ∧ Within keys models (s.after rs) more := by
  induction rs generalizing s with
  | nil => exact ⟨fun h => ⟨trivial, h⟩, fun h => h.2⟩
  | cons r rs ih => exact ⟨fun h => ⟨⟨h.1, (ih.mp h.2).1⟩, (ih.mp h.2).2⟩,
      fun h => ⟨h.1.1, ih.mpr ⟨h.1.2, h.2⟩⟩⟩

end Session
end Routebook

/-
  Routebook.Proofs.Text.Cut

  The last occurrence of a character.  A text is cut there by reading it from
  its end (`dropWhile_cut`, `takeWhile_cut`), and there is one such place at
  most (`eq_of_cut`).
-/
import Mathlib.Data.List.TakeWhile

namespace Routebook.Text

variable {p : Char → Bool} {before tail : List Char} {c : Char}

theorem reverse_cut : (before ++ c :: tail).reverse = tail.reverse ++ c :: before.reverse := by
  rw [List.reverse_append, List.reverse_cons, List.append_assoc, List.singleton_append]

theorem dropWhile_cut (htail : ∀ x ∈ tail, p x = true) (hc : ¬ p c = true) :
    (before ++ c :: tail).reverse.dropWhile p = c :: before.reverse := by
  rw [reverse_cut, List.dropWhile_append_of_pos fun x hx => htail x (List.mem_reverse.mp hx),
    List.dropWhile_cons_of_neg hc]

theorem takeWhile_cut (htail : ∀ x ∈ tail, p x = true) (hc : ¬ p c = true) :
    (before ++ c :: tail).reverse.takeWhile p = tail.reverse := by
  rw [reverse_cut, List.takeWhile_append_of_pos fun x hx => htail x (List.mem_reverse.mp hx),
    List.takeWhile_cons_of_neg hc, List.append_nil]

theorem dropWhile_uncut {cs : List Char} (h : ∀ x ∈ cs, p x = true) :
    cs.reverse.dropWhile p = [] :=
  List.dropWhile_eq_nil_iff.mpr fun x hx => h x (List.mem_reverse.mp hx)

theorem bne_of_notMem {cs : List Char} (h : c ∉ cs) : ∀ x ∈ cs, (x != c) = true := fun _ hx =>
  bne_iff_ne.mpr (ne_of_mem_of_not_mem hx h)

theorem exists_cut {cs : List Char} (h : c ∈ cs) :
    ∃ before tail, cs = before ++ c :: tail ∧ c ∉ tail := by
  obtain ⟨tail, before, hcs, htail⟩ := List.eq_append_cons_of_mem (List.mem_reverse.mpr h)
  refine ⟨before.reverse, tail.reverse, ?_, fun hmem => htail (List.mem_reverse.mp hmem)⟩
  rw [← List.reverse_reverse cs, hcs, reverse_cut]

/-- A text has one last occurrence of a character. -/
theorem eq_of_cut {before' tail' : List Char} (htail : c ∉ tail) (htail' : c ∉ tail')
    (h : before ++ c :: tail = before' ++ c :: tail') : before = before' ∧ tail = tail' := by
  have hreverse : c :: before.reverse = c :: before'.reverse := by
    rw [← dropWhile_cut (p := (· != c)) (bne_of_notMem htail) (by simp), h,
      dropWhile_cut (bne_of_notMem htail') (by simp)]
  obtain rfl : before = before' := List.reverse_inj.mp (List.cons.inj hreverse).2
  exact ⟨rfl, (List.cons.inj (List.append_cancel_left h)).2⟩

end Routebook.Text

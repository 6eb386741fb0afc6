/-
  Routebook.Proofs.Handbook.Content

  Content that is a JSON array or object, given as data or as a text, is shown
  without being changed: the text that is shown reads back as the same
  document, and it is shown as it stands when it is given as content itself
  (`content_canonical`).

  Both follow from what the reader answers: a value within the limits, which
  the layout of documents writes in a form that is read back.
-/
import Routebook.Handbook.Content
import Routebook.Proofs.Json.Document

namespace Routebook.Handbook

open Json (Distinct Dialect Style read? print fits_of_distinct fits_of_read? read?_document)

/-- The document that content stands for: a text for the one it reads as, data
for itself.  In data no object has a key twice, and every integer is short
enough to be written. -/
inductive Denotes : Value → Value → Prop where
  | text {s : String} {d : Value} (hread : read? .document s = some d)
      (hdoc : isDocument d = true) : Denotes (.string s) d
  | data {d : Value} (hdoc : isDocument d = true) (hdistinct : Distinct d)
      (hshort : d.hasLongInt = false) : Denotes d d

namespace Denotes

variable {v d : Value}

theorem document (h : Denotes v d) : isDocument d = true := by
  cases h with
  | text _ hdoc => exact hdoc
  | data hdoc _ _ => exact hdoc

/-- A document is within the limits of the reader, however it was given. -/
theorem fits (h : Denotes v d) : Dialect.document.fits 0 d = true := by
  cases h with
  | text hread _ => exact fits_of_read? hread
  | data _ hdistinct hshort => exact fits_of_distinct 0 _ hdistinct hshort

/-- What is shown is the layout of the document. -/
theorem content_eq (h : Denotes v d) : content v = .ok (print .document d) := by
  cases h with
  | text hread hdoc =>
      unfold content formOfText jsonForm?
      simp only [hread, hdoc, if_true]
  | data hdoc _ hshort =>
      unfold content
      split
      · exact absurd hdoc (by simp [isDocument])
      · exact absurd hdoc (by simp [isDocument])
      · rw [if_neg (by simp [hshort]), if_pos hdoc]

/-- The layout of a document is a text that stands for it. -/
theorem printed (h : Denotes v d) : Denotes (.string (print .document d)) d :=
  .text (read?_document h.fits) h.document

end Denotes

/-- Showing a document keeps it, and what is shown is shown as it stands. -/
theorem content_canonical {v d : Value} (h : Denotes v d) :
    ∃ shown, content v = .ok shown ∧ read? .document shown = some d ∧
      content (.string shown) = .ok shown :=
  ⟨print .document d, h.content_eq, read?_document h.fits, h.printed.content_eq⟩

/-- A key that is repeated, a number that is not finite, and an escape. -/
theorem content_canonical_repeatedKey :
    let text := "\x7b\"b\": 1,\t\"a\": [NaN, \"\\n\", -0],\n\"b\": []\x7d"
    let d : Value := .object [("b", .array []), ("a", .array [.float .nan, .string "\n", .int 0])]
    Denotes (.string text) d ∧ ∃ shown, content (.string text) = .ok shown ∧
      read? .document shown = some d ∧ content (.string shown) = .ok shown := by
  intro text d
  have htokens : Json.tokens .document
        "\x7b\"b\": 1,\t\"a\": [NaN, \"\\n\", -0],\n\"b\": []\x7d".toList
      = some [.openObject, .string "b", .colon, .int 1, .comma, .string "a", .colon, .openArray,
          .float .nan, .comma, .string "\n", .comma, .int 0, .closeArray, .comma,
          .string "b", .colon, .openArray, .closeArray, .closeObject] := by
    rfl
  have hread : read? .document text = some d := by
    unfold read?
    rw [htokens]
    rfl
  have hdenotes : Denotes (.string text) d := .text hread rfl
  exact ⟨hdenotes, content_canonical hdenotes⟩

end Routebook.Handbook

import Mathlib.Data.List.Infix
import Vpnmgr.Library.Text

/-! Words of a text, and where a text has another within it. -/

namespace Text

/-- `split_whitespace`, on characters. -/
def splitWhitespace (cs : List Char) : List (List Char) := (cs.splitOnP isWhitespace).filter (· ≠ [])

/-- `starts_with`. -/
def startsWith (s part : String) : Bool := part.toList.isPrefixOf s.toList

theorem hasText_iff {s part : String} : hasText s part = true ↔ part.toList <:+: s.toList := by
  simp only [hasText, List.any_eq_true, List.mem_tails, List.isPrefixOf_iff_prefix]
  constructor
  · rintro ⟨t, hsuffix, hprefix⟩
    exact hprefix.isInfix.trans hsuffix.isInfix
  · rintro ⟨before, after, h⟩
    exact ⟨part.toList ++ after, ⟨before, by rw [← h, List.append_assoc]⟩, List.prefix_append _ _⟩

theorem hasText_append {a part : String} (h : hasText a part = true) (b : String) :
    hasText (a ++ b) part = true := by
  rw [hasText_iff] at h ⊢
  rw [String.toList_append]
  exact h.trans (List.prefix_append _ _).isInfix

theorem hasText_self (s : String) : hasText s s = true := hasText_iff.mpr (List.infix_refl _)

/-- A text that joins pieces has within it what one of the pieces has. -/
theorem hasText_join {pieces : List String} {part : String} (piece : String)
    (hpiece : piece ∈ pieces) (h : hasText piece part = true) :
    hasText (String.join pieces) part = true := by
  rw [hasText_iff] at h ⊢
  rw [String.toList_join]
  obtain ⟨before, after, rfl⟩ := List.append_of_mem hpiece
  rw [List.flatMap_append, List.flatMap_cons]
  exact h.trans ⟨_, _, List.append_assoc _ _ _⟩

/-- What has a character that no piece has is not within the text that joins the pieces. -/
theorem not_hasText_join {pieces : List String} {part : String} {c : Char} (hc : c ∈ part.toList)
    (h : ∀ piece ∈ pieces, c ∉ piece.toList) : hasText (String.join pieces) part = false := by
  rw [← Bool.not_eq_true, hasText_iff, String.toList_join]
  intro hjoin
  obtain ⟨piece, hpiece, hin⟩ := List.mem_flatMap.mp (hjoin.subset hc)
  exact h piece hpiece hin

end Text

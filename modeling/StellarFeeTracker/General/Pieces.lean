import Mathlib.Data.List.DropRight
import Mathlib.Tactic.Common

/-!
# Lists in a text

A list that is written as one text stands there as its pieces between separators.  What surrounds a
piece is dropped, and so are blank pieces, so that every text is a list.  The pieces that a list can
have are `IsPiece` (`isPiece_of_mem_pieces`), and a list of such pieces is read back from its text
(`pieces_intercalate`).
-/

namespace Pieces

variable {α : Type*}

/-- A text without what can be dropped at its ends. -/
def trimBy (p : α → Bool) (text : List α) : List α := (text.dropWhile p).rdropWhile p

theorem trimBy_idem (p : α → Bool) (text : List α) : trimBy p (trimBy p text) = trimBy p text := by
  have hhead : (trimBy p text).dropWhile p = trimBy p text := by
    rw [List.dropWhile_eq_self_iff]
    intro hpos
    obtain ⟨back, hback⟩ : trimBy p text <+: text.dropWhile p := List.rdropWhile_prefix p _
    have hfirst : (text.dropWhile p)[0]? = some (trimBy p text)[0] := by
      rw [← hback, List.getElem?_append_left hpos, List.getElem?_eq_getElem hpos]
    have hstop := List.head?_dropWhile_not p text
    rw [List.head?_eq_getElem?, hfirst] at hstop
    simpa using hstop
  show ((trimBy p text).dropWhile p).rdropWhile p = trimBy p text
  rw [hhead]
  exact List.rdropWhile_idempotent p _

theorem mem_of_mem_trimBy {p : α → Bool} {text : List α} {a : α} (h : a ∈ trimBy p text) :
    a ∈ text := by
  apply (List.dropWhile_sublist p).subset
  apply (List.rdropWhile_prefix p _).subset
  exact h

variable [BEq α] [LawfulBEq α]

/-- The pieces of a text between separators that have anything in them. -/
def pieces (p : α → Bool) (sep : α) (text : List α) : List (List α) :=
  ((text.splitOn sep).map (trimBy p)).filter fun piece => !piece.isEmpty

structure IsPiece (p : α → Bool) (sep : α) (piece : List α) : Prop where
  ne_nil : piece ≠ []
  trimmed : trimBy p piece = piece
  sep_notMem : sep ∉ piece

theorem notMem_of_mem_splitOn {sep : α} {text piece : List α} (h : piece ∈ text.splitOn sep) :
    sep ∉ piece := by
  induction text generalizing piece with
  | nil =>
    rw [List.splitOn_nil, List.mem_singleton] at h
    rw [h]
    exact List.not_mem_nil
  | cons c text ih =>
    rw [List.splitOn, List.splitOnP_cons_eq_if_modifyHead] at h
    split at h
    · rcases List.mem_cons.1 h with rfl | h
      · exact List.not_mem_nil
      · exact ih h
    · next hc =>
      obtain ⟨first, rest, hsplit⟩ :=
        List.exists_cons_of_ne_nil (List.splitOnP_ne_nil (· == sep) text)
      rw [hsplit, List.modifyHead_cons] at h
      rcases List.mem_cons.1 h with rfl | h
      · intro hsep
        rcases List.mem_cons.1 hsep with rfl | hsep
        · exact hc (beq_self_eq_true _)
        · exact ih (by rw [List.splitOn, hsplit]; exact List.mem_cons_self) hsep
      · exact ih (by rw [List.splitOn, hsplit]; exact List.mem_cons_of_mem _ h)

theorem isPiece_of_mem_pieces {p : α → Bool} {sep : α} {text piece : List α}
    (h : piece ∈ pieces p sep text) : IsPiece p sep piece := by
  unfold pieces at h
  obtain ⟨hmem, hne⟩ := List.mem_filter.1 h
  obtain ⟨raw, hraw, rfl⟩ := List.mem_map.1 hmem
  exact
    { ne_nil := by simpa using hne
      trimmed := trimBy_idem p raw
      sep_notMem := fun hsep => notMem_of_mem_splitOn hraw (mem_of_mem_trimBy hsep) }

/-- A list of pieces is read back from its text. -/
theorem pieces_intercalate {p : α → Bool} {sep : α} {list : List (List α)}
    (h : ∀ piece ∈ list, IsPiece p sep piece) : pieces p sep ([sep].intercalate list) = list := by
  rcases eq_or_ne list [] with rfl | hne
  · rfl
  · unfold pieces
    rw [List.splitOn_intercalate sep (fun piece hpiece => (h piece hpiece).sep_notMem) hne,
      List.map_congr_left fun piece hpiece => (h piece hpiece).trimmed, List.map_id',
      List.filter_eq_self]
    intro piece hpiece
    simpa using (h piece hpiece).ne_nil

end Pieces

import Mathlib.Data.List.TakeWhile
import Lifecycle.Url

/-!
# URLs one step below a URL

Cutting a template at its last slash and splitting it at all slashes agree: a URL whose parent is
another one has the tokens of that one and at most one more.
-/
namespace Lifecycle

namespace Text

theorem pieces_ne_nil (separator : Char) (cs : List Char) : pieces separator cs ≠ [] := by
  induction cs with
  | nil => exact List.cons_ne_nil _ _
  | cons c rest ih =>
    unfold pieces
    split
    · exact List.cons_ne_nil _ _
    · split <;> exact List.cons_ne_nil _ _

theorem pieces_of_not_mem {separator : Char} {cs : List Char} (h : separator ∉ cs) :
    pieces separator cs = [cs] := by
  induction cs with
  | nil => rfl
  | cons c rest ih =>
    rw [List.mem_cons, not_or] at h
    rw [pieces, if_neg (by rw [beq_iff_eq]; exact Ne.symm h.1), ih h.2]

/-- A separator ends the pieces in front of it. -/
theorem pieces_append_cons (separator : Char) (front back : List Char) :
    pieces separator (front ++ separator :: back) =
      pieces separator front ++ pieces separator back := by
  induction front with
  | nil => simp [pieces]
  | cons c rest ih =>
    rw [List.cons_append, pieces, pieces, ih]
    split
    · rfl
    · cases hp : pieces separator rest with
      | nil => exact absurd hp (pieces_ne_nil separator rest)
      | cons piece more => rfl

/-- Pieces hold all that is no separator, in its order. -/
theorem flatten_pieces (separator : Char) (cs : List Char) :
    (pieces separator cs).flatten = cs.filter (· != separator) := by
  induction cs with
  | nil => rfl
  | cons c rest ih =>
    unfold pieces
    split
    · rename_i hc
      rw [List.flatten_cons, ih, List.filter_cons_of_neg (by simpa using hc)]
      rfl
    · rename_i hc
      rw [List.filter_cons_of_pos (by simpa using hc), ← ih]
      cases hp : pieces separator rest with
      | nil => exact absurd hp (pieces_ne_nil separator rest)
      | cons piece more => rfl

end Text

open Text

/-- A piece that is neither blank nor a parameter. -/
def IsLiteral (piece : String) : Prop :=
  trim piece.toList ≠ [] ∧ ∃ name, UrlToken.ofPiece (trim piece.toList) = .literal name

namespace Url

/-- The URL with one more piece. -/
def child (url : Url) (piece : String) : Url := ⟨url.path ++ "/" ++ piece⟩

theorem toList_child (url : Url) (piece : String) :
    (url.child piece).path.toList = url.path.toList ++ '/' :: piece.toList := by
  simp [child]

/-- Children are told by the text of their path. -/
theorem eq_child_iff {url base : Url} {piece : String} :
    url = base.child piece ↔ url.path.toList = base.path.toList ++ '/' :: piece.toList := by
  rw [← toList_child, String.toList_inj]
  cases url
  simp [child]

/-- The parent of a URL is what the URL is one piece below. -/
theorem parent?_eq_some_iff {url base : Url} :
    url.parent? = some base ↔ ∃ piece : String, '/' ∉ piece.toList ∧ url = base.child piece := by
  unfold parent?
  constructor
  · intro h
    split at h
    · cases h
    · rename_i c start hd
      cases h
      have hc : c = '/' := by
        have hn := List.head?_dropWhile_not (· != '/') url.path.toList.reverse
        rw [hd] at hn
        simpa using hn
      rw [hc] at hd
      have hcut : ∃ back, '/' ∉ back ∧ url.path.toList.reverse = back ++ '/' :: start := by
        refine ⟨url.path.toList.reverse.takeWhile (· != '/'), ?_, ?_⟩
        · intro hm
          have ht := List.mem_takeWhile_imp hm
          simp at ht
        · rw [← hd, List.takeWhile_append_dropWhile]
      obtain ⟨back, hb, hcut⟩ := hcut
      have hpath : url.path.toList = start.reverse ++ '/' :: back.reverse := by
        rw [← List.reverse_reverse url.path.toList, hcut]
        simp
      refine ⟨String.ofList back.reverse, ?_, ?_⟩
      · rw [String.toList_ofList, List.mem_reverse]
        exact hb
      · rw [eq_child_iff, String.toList_ofList, String.toList_ofList, hpath]
  · rintro ⟨piece, hp, hu⟩
    have hd : (url.path.toList.reverse).dropWhile (· != '/') = '/' :: base.path.toList.reverse := by
      rw [eq_child_iff.mp hu, List.reverse_append, List.reverse_cons, List.append_assoc,
        List.dropWhile_append_of_pos]
      · rfl
      · intro c hc
        rw [List.mem_reverse] at hc
        simpa using fun e : c = '/' => hp (e ▸ hc)
    rw [hd]
    simp

/-- The tokens of a URL one piece below another one. -/
theorem tokens_child {base : Url} {piece : String} (h : '/' ∉ piece.toList) :
    (base.child piece).tokens = base.tokens ++
      if trim piece.toList = [] then [] else [.ofPiece (trim piece.toList)] := by
  unfold tokens
  rw [toList_child, pieces_append_cons, pieces_of_not_mem h, List.map_append, List.filter_append,
    List.map_append]
  congr 1
  by_cases hb : trim piece.toList = []
  · simp [hb]
  · simp [hb]

/-- A parameter that waits for its literal becomes the innermost segment. -/
theorem isParameter_head_segmentsOf (parameter : String) (tokens : List UrlToken) :
    (segmentsOf (some parameter) tokens).head?.any Segment.isParameter = true := by
  cases tokens with
  | nil => rfl
  | cons token rest => cases token <;> rfl

theorem any_not_isParameter {innermost : Option Segment}
    (h : innermost.any Segment.isParameter = true) : innermost.any (!·.isParameter) = false := by
  cases innermost with
  | none => rfl
  | some segment => simpa using h

/-- One piece below a URL that ends in a parameter, the innermost segment is no parameter just if
the piece is a literal. -/
theorem child_endsInLiteral_iff {base : Url} {piece : String} (h : '/' ∉ piece.toList)
    (hb : base.endsInParameter = true) :
    (base.child piece).segments.head?.any (!·.isParameter) = true ↔ IsLiteral piece := by
  unfold segments IsLiteral
  rw [tokens_child h]
  by_cases ht : trim piece.toList = []
  · -- a blank piece leaves the parameter innermost
    rw [if_pos ht, List.append_nil]
    have hn := any_not_isParameter hb
    unfold segments at hn
    simp [hn, ht]
  · rw [if_neg ht, List.reverse_append, List.reverse_singleton, List.singleton_append]
    cases UrlToken.ofPiece (trim piece.toList) with
    | literal name => simp [segmentsOf, Segment.isParameter, ht]
    | parameter name =>
      have hn := any_not_isParameter (isParameter_head_segmentsOf name base.tokens.reverse)
      rw [segmentsOf, hn]
      simp

end Url

end Lifecycle

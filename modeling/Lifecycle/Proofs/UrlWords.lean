import Mathlib.Data.List.Chain
import Lifecycle.Proofs.SubUrl

/-!
# Words and segments of a URL

The words of a template are its pieces between slashes without the white space around them, those
that are not blank. Its segments, written out from the outermost inwards, give the words back, and
which segment a word belongs to shows in the words next to it. White space and empty pieces are
lost: two templates with the same words have the same segments.
-/
namespace Lifecycle

open Text

/-- A word that names a parameter. -/
def IsBraced (word : String) : Prop := ∃ name, word = (UrlToken.parameter name).text

/-- The pieces between slashes, trimmed, those that are not blank. -/
def Url.words (url : Url) : List String :=
  (((pieces '/' url.path.toList).map trim).filter (!·.isEmpty)).map String.ofList

def wordsOf (segments : List Segment) : List String :=
  (segments.flatMap Segment.tokens).map UrlToken.text

theorem wordsOf_append (front back : List Segment) :
    wordsOf (front ++ back) = wordsOf front ++ wordsOf back := by
  simp [wordsOf]

theorem wordsOf_cons (s : Segment) (rest : List Segment) :
    wordsOf (s :: rest) = s.tokens.map UrlToken.text ++ wordsOf rest := by
  simp [wordsOf]

/-! ### Tokens of words -/

theorem Text.dropTail?_eq_some_iff {tail cs front : List Char} :
    dropTail? tail cs = some front ↔ cs = front ++ tail := by
  unfold dropTail?
  constructor
  · intro h
    split at h
    · rename_i hs
      obtain ⟨start, rfl⟩ := List.isSuffixOf_iff_suffix.mp hs
      cases h
      simp
    · cases h
  · rintro rfl
    have hs : tail.isSuffixOf (front ++ tail) = true :=
      List.isSuffixOf_iff_suffix.mpr (List.suffix_append front tail)
    rw [if_pos hs]
    simp

namespace UrlToken

def ofWord (word : String) : UrlToken := ofPiece word.toList

def isParameter : UrlToken → Bool
  | .literal _ => false
  | .parameter _ => true

theorem toList_text_parameter (name : String) :
    (UrlToken.parameter name).text.toList = '\x7b' :: (name.toList ++ ['\x7d']) := by
  simp [text]

@[simp] theorem ofWord_parameter (name : String) :
    ofWord (UrlToken.parameter name).text = .parameter name := by
  have hd : dropTail? ['\x7d'] (name.toList ++ ['\x7d']) = some name.toList :=
    dropTail?_eq_some_iff.mpr rfl
  unfold ofWord
  rw [toList_text_parameter]
  simp only [ofPiece, hd, String.ofList_toList]

/-- Reading a word and writing its token loses nothing. -/
@[simp] theorem text_ofWord (word : String) : (ofWord word).text = word := by
  unfold ofWord ofPiece
  split
  · rename_i rest hw
    split
    · rename_i name hn
      rw [← String.toList_inj, toList_text_parameter, String.toList_ofList, hw,
        dropTail?_eq_some_iff.mp hn]
    · exact String.ofList_toList
  · exact String.ofList_toList

theorem isBraced_iff (word : String) : IsBraced word ↔ (ofWord word).isParameter = true := by
  constructor
  · rintro ⟨name, rfl⟩
    rw [ofWord_parameter]
    rfl
  · intro h
    cases hw : ofWord word with
    | literal name =>
      rw [hw] at h
      cases h
    | parameter name => exact ⟨name, by rw [← hw, text_ofWord]⟩

theorem ofWord_literal {word : String} (h : ¬ IsBraced word) : ofWord word = .literal word := by
  cases hw : ofWord word with
  | literal name =>
    have ht := text_ofWord word
    rw [hw] at ht
    rw [← ht]
    rfl
  | parameter name => exact absurd ((isBraced_iff word).mpr (by rw [hw]; rfl)) h

end UrlToken

open UrlToken

theorem Url.tokens_eq (url : Url) : url.tokens = url.words.map ofWord := by
  unfold tokens words
  rw [List.map_map]
  apply List.map_congr_left
  intro piece _
  rw [Function.comp_apply, ofWord, String.toList_ofList]

theorem Url.words_eq (url : Url) : url.words = url.tokens.map text := by
  rw [tokens_eq, List.map_map]
  symm
  apply List.map_id''
  exact text_ofWord

theorem Url.ne_empty_of_mem_words {url : Url} {word : String} (h : word ∈ url.words) :
    word ≠ "" := by
  obtain ⟨piece, hp, rfl⟩ := List.mem_map.mp h
  have hn := (List.mem_filter.mp hp).2
  intro he
  rw [String.ofList_eq_empty_iff] at he
  rw [he] at hn
  cases hn

/-- A literal among the tokens of a URL is a word that is not in braces. -/
theorem Url.literal_of_mem_tokens {url : Url} {name : String}
    (h : UrlToken.literal name ∈ url.tokens) : name ≠ "" ∧ ¬ IsBraced name := by
  rw [tokens_eq] at h
  obtain ⟨word, hw, he⟩ := List.mem_map.mp h
  obtain rfl : word = name := by
    rw [← text_ofWord word, he]
    rfl
  refine ⟨ne_empty_of_mem_words hw, ?_⟩
  rw [isBraced_iff, he]
  exact Bool.false_ne_true

/-! ### Segments of tokens -/

namespace Segment

/-- A parameter that stands for any resource whatsoever. -/
def IsScope (s : Segment) : Prop := ∃ p ∈ s.parameter?, p.kind = .scope

/-- A parameter without a literal in front of it. -/
def IsBare (s : Segment) : Prop := ∃ p ∈ s.parameter?, p.literal = ""

theorem isBare_parameter {p : ParameterSegment} :
    (Segment.parameter p).IsBare ↔ p.literal = "" := by
  simp [IsBare, parameter?]

theorem isScope_parameter {p : ParameterSegment} :
    (Segment.parameter p).IsScope ↔ p.kind = .scope := by
  simp [IsScope, parameter?]

theorem not_isBare_literal (name : String) : ¬ (Segment.literal name).IsBare := by
  simp [IsBare, parameter?]

theorem not_isScope_literal (name : String) : ¬ (Segment.literal name).IsScope := by
  simp [IsScope, parameter?]

theorem tokens_bare {p : ParameterSegment} (h : p.literal = "") :
    (Segment.parameter p).tokens = [.parameter p.parameter] := by
  simp [tokens, h]

theorem tokens_named {p : ParameterSegment} (h : p.literal ≠ "") :
    (Segment.parameter p).tokens = [.literal p.literal, .parameter p.parameter] := by
  simp [tokens, h]

/-- What a segment tells of the next outer one: it is not the scope, and without a literal it stands
right behind a parameter. -/
structure Within (inner outer : Segment) : Prop where
  notScope : ¬ inner.IsScope
  bare : inner.IsBare → outer.isParameter = true

end Segment

open Segment

theorem ParameterKind.ofLiteral_ne_scope (literal : String) : ofLiteral literal ≠ .scope := by
  unfold ofLiteral
  dsimp only
  split
  · decide
  · split <;> decide

/-- Tokens whose literals are not empty. -/
def NoEmptyLiteral (tokens : List UrlToken) : Prop :=
  ∀ name, UrlToken.literal name ∈ tokens → name ≠ ""

theorem NoEmptyLiteral.tail {token : UrlToken} {rest : List UrlToken}
    (h : NoEmptyLiteral (token :: rest)) : NoEmptyLiteral rest :=
  fun name hn => h name (List.mem_cons_of_mem _ hn)

theorem NoEmptyLiteral.head {name : String} {rest : List UrlToken}
    (h : NoEmptyLiteral (.literal name :: rest)) : name ≠ "" :=
  h name List.mem_cons_self

/-- No token is lost and none is made up. -/
theorem tokens_segmentsOf {tokens : List UrlToken} (h : NoEmptyLiteral tokens)
    (pending : Option String) :
    (segmentsOf pending tokens).flatMap (fun s => s.tokens.reverse) =
      (pending.map UrlToken.parameter).toList ++ tokens := by
  fun_induction segmentsOf pending tokens with
  | case1 => rfl
  | case2 p => rfl
  | case3 name rest ih =>
    rw [List.flatMap_cons, ih h.tail]
    rfl
  | case4 p name rest ih =>
    rw [List.flatMap_cons, ih h.tail, tokens_named h.head]
    rfl
  | case5 p rest ih => rw [ih h.tail]; rfl
  | case6 p q rest ih =>
    rw [List.flatMap_cons, ih h.tail, tokens_bare rfl]
    rfl

/-- By induction on the tokens, with or without a literal pending. -/
theorem isChain_segmentsOf {tokens : List UrlToken} (h : NoEmptyLiteral tokens)
    (pending : Option String) : (segmentsOf pending tokens).IsChain Within := by
  fun_induction segmentsOf pending tokens with
  | case1 => exact .nil
  | case2 p => exact .singleton _
  | case3 name rest ih =>
    refine List.isChain_cons.mpr ⟨fun outer _ => ⟨not_isScope_literal name, ?_⟩, ih h.tail⟩
    intro hb
    exact absurd hb (not_isBare_literal name)
  | case4 p name rest ih =>
    refine List.isChain_cons.mpr ⟨fun outer _ => ⟨?_, ?_⟩, ih h.tail⟩
    · rw [isScope_parameter]
      exact ParameterKind.ofLiteral_ne_scope name
    · rw [isBare_parameter]
      exact fun he => absurd he h.head
  | case5 p rest ih => exact ih h.tail
  | case6 p q rest ih =>
    refine List.isChain_cons.mpr ⟨fun outer ho => ⟨?_, fun _ => ?_⟩, ih h.tail⟩
    · rw [isScope_parameter]
      exact ParameterKind.ofLiteral_ne_scope ""
    · have hp := Url.isParameter_head_segmentsOf q rest
      rw [ho] at hp
      exact hp

/-- The outermost segment is the scope just if it has no literal. -/
theorem isScope_getLast_segmentsOf {tokens : List UrlToken} (h : NoEmptyLiteral tokens)
    (pending : Option String) :
    ∀ s ∈ (segmentsOf pending tokens).getLast?, s.IsScope ↔ s.IsBare := by
  have last_cons {s : Segment} {rest : List Segment} (hs : rest = [] → (s.IsScope ↔ s.IsBare))
      (hr : ∀ s ∈ rest.getLast?, s.IsScope ↔ s.IsBare) :
      ∀ t ∈ (s :: rest).getLast?, t.IsScope ↔ t.IsBare := by
    cases rest with
    | nil =>
      intro t ht
      cases ht
      exact hs rfl
    | cons next more =>
      rw [List.getLast?_cons_cons]
      exact hr
  fun_induction segmentsOf pending tokens with
  | case1 => exact fun s hs => nomatch hs
  | case2 p =>
    refine last_cons (fun _ => ?_) fun _ hs => nomatch hs
    rw [isScope_parameter, isBare_parameter]
    exact iff_of_true rfl rfl
  | case3 name rest ih =>
    refine last_cons (fun _ => ?_) (ih h.tail)
    exact iff_of_false (not_isScope_literal name) (not_isBare_literal name)
  | case4 p name rest ih =>
    refine last_cons (fun _ => ?_) (ih h.tail)
    rw [isScope_parameter, isBare_parameter]
    exact iff_of_false (ParameterKind.ofLiteral_ne_scope name) h.head
  | case5 p rest ih => exact ih h.tail
  | case6 p q rest ih =>
    refine last_cons (fun hn => ?_) (ih h.tail)
    have hp := Url.isParameter_head_segmentsOf q rest
    rw [hn] at hp
    cases hp

/-! ### Segments of a URL -/

namespace Url

variable {url : Url} {outer inner : List Segment}

theorem noEmptyLiteral_tokens (url : Url) : NoEmptyLiteral url.tokens.reverse :=
  fun _ h => (literal_of_mem_tokens (List.mem_reverse.mp h)).1

theorem flatMap_tokens_segments (url : Url) :
    url.segments.reverse.flatMap Segment.tokens = url.tokens := by
  have h := congrArg List.reverse (tokens_segmentsOf url.noEmptyLiteral_tokens none)
  rw [List.reverse_flatMap] at h
  simpa [segments, Function.comp_def] using h

/-- Segments written out are the words they were read from. -/
theorem wordsOf_segments (url : Url) : wordsOf url.segments.reverse = url.words := by
  rw [wordsOf, flatMap_tokens_segments, words_eq]

theorem mem_tokens_of_segment {s : Segment} (h : url.segments.reverse = outer ++ s :: inner)
    {token : UrlToken} (ht : token ∈ s.tokens) : token ∈ url.tokens := by
  rw [← flatMap_tokens_segments, h, List.mem_flatMap]
  exact ⟨s, by simp, ht⟩

theorem segments_eq {s : Segment} (h : url.segments.reverse = outer ++ s :: inner) :
    url.segments = inner.reverse ++ s :: outer.reverse := by
  rw [← List.reverse_reverse url.segments, h]
  simp

/-- What holds between a segment and the next outer one. -/
theorem within_of_segments {s t : Segment} (h : url.segments.reverse = outer ++ t :: s :: inner) :
    s.Within t := by
  have hc : url.segments.IsChain Within := isChain_segmentsOf url.noEmptyLiteral_tokens none
  have hs : url.segments = inner.reverse ++ s :: t :: outer.reverse := by
    rw [← List.reverse_reverse url.segments, h]
    simp
  rw [hs, List.isChain_append_cons_cons] at hc
  exact hc.2.1

theorem isScope_iff {s : Segment} (h : url.segments.reverse = outer ++ s :: inner) :
    s.IsScope ↔ outer = [] ∧ s.IsBare := by
  rcases List.eq_nil_or_concat' outer with rfl | ⟨front, t, rfl⟩
  · rw [and_iff_right rfl]
    apply isScope_getLast_segmentsOf url.noEmptyLiteral_tokens none
    change s ∈ url.segments.getLast?
    rw [segments_eq h]
    simp
  · rw [List.append_assoc] at h
    have hw := within_of_segments h
    exact iff_of_false hw.notScope fun hc => List.append_ne_nil_of_right_ne_nil _ (by simp) hc.1

/-- The words of a URL up to a segment, the segment and those from there on. -/
theorem words_of_segments {s : Segment} (h : url.segments.reverse = outer ++ s :: inner) :
    url.words = wordsOf outer ++ s.tokens.map text ++ wordsOf inner := by
  rw [← wordsOf_segments, h, wordsOf_append, wordsOf_cons, List.append_assoc]

theorem isBraced_getLast_wordsOf {s : Segment} (h : s.isParameter = true) (front : List Segment) :
    ∀ word ∈ (wordsOf (front ++ [s])).getLast?, IsBraced word := by
  cases s with
  | literal name => cases h
  | parameter p =>
    intro word hw
    rw [wordsOf_append] at hw
    by_cases hp : p.literal = ""
    · have he : (UrlToken.parameter p.parameter).text = word := by
        simpa [wordsOf, tokens_bare hp] using hw
      exact ⟨p.parameter, he.symm⟩
    · have he : (UrlToken.parameter p.parameter).text = word := by
        simpa [wordsOf, tokens_named hp] using hw
      exact ⟨p.parameter, he.symm⟩

theorem not_isBraced_head_wordsOf {s : Segment} (h : url.segments.reverse = outer ++ s :: inner)
    (hs : ¬ s.IsBare) : ∀ word ∈ (wordsOf (s :: inner)).head?, ¬ IsBraced word := by
  intro word hw
  cases s with
  | literal name =>
    have hn : UrlToken.literal name ∈ url.tokens :=
      mem_tokens_of_segment h (by simp [Segment.tokens])
    have he : (UrlToken.literal name).text = word := by
      simpa [wordsOf, Segment.tokens] using hw
    rw [← he]
    exact (literal_of_mem_tokens hn).2
  | parameter p =>
    rw [isBare_parameter] at hs
    have hn : UrlToken.literal p.literal ∈ url.tokens :=
      mem_tokens_of_segment h (by simp [tokens_named hs])
    have he : (UrlToken.literal p.literal).text = word := by
      simpa [wordsOf, tokens_named hs] using hw
    rw [← he]
    exact (literal_of_mem_tokens hn).2

/-- What the segments of a URL tell of its words, and the words of the segments. Segments are looked
at from the outermost inwards: `outer` has those outside of a segment, `inner` those inside. -/
structure ReadFromWords (url : Url) : Prop where
  written_eq : wordsOf url.segments.reverse = url.words
  determined : ∀ other : Url, other.words = url.words → other.segments = url.segments
  /-- the scope is the outermost segment, if the first word is in braces -/
  scope : ∀ outer s inner, url.segments.reverse = outer ++ s :: inner →
    (s.IsScope ↔ outer = [] ∧ ∃ word ∈ url.words.head?, IsBraced word)
  atMostOneScope : url.parameters.countP (·.kind == .scope) ≤ 1
  /-- `front` has the words in front of a parameter -/
  parameter : ∀ outer p inner, url.segments.reverse = outer ++ .parameter p :: inner →
    ∃ front, url.words = front ++ (UrlToken.parameter p.parameter).text :: wordsOf inner ∧
      (p.literal = "" ↔ ∀ word ∈ front.getLast?, IsBraced word)
  literal : ∀ outer name inner, url.segments.reverse = outer ++ .literal name :: inner →
    url.words = wordsOf outer ++ name :: wordsOf inner ∧ ¬ IsBraced name ∧
      ∀ word ∈ (wordsOf inner).head?, ¬ IsBraced word
  endsInParameter_iff : url.endsInParameter = true ↔ ∃ word ∈ url.words.getLast?, IsBraced word

theorem countP_scope_segmentsOf (pending : Option String) (tokens : List UrlToken) :
    ((segmentsOf pending tokens).filterMap Segment.parameter?).countP (·.kind == .scope) ≤ 1 := by
  have hn (literal : String) : (ParameterKind.ofLiteral literal == .scope) = false :=
    beq_eq_false_iff_ne.mpr (ParameterKind.ofLiteral_ne_scope literal)
  fun_induction segmentsOf pending tokens with
  | case1 => exact Nat.zero_le 1
  | case2 p => exact Nat.le_refl 1
  | case3 name rest ih => exact ih
  | case4 p name rest ih => simpa [Segment.parameter?, hn] using ih
  | case5 p rest ih => exact ih
  | case6 p q rest ih => simpa [Segment.parameter?, hn] using ih

/-- A scope is the outermost segment, and only where the URL begins with a parameter. -/
theorem scope_iff {s : Segment} (h : url.segments.reverse = outer ++ s :: inner) :
    s.IsScope ↔ outer = [] ∧ ∃ word ∈ url.words.head?, IsBraced word := by
  rw [isScope_iff h]
  apply and_congr_right
  rintro rfl
  have hw : url.words = wordsOf (s :: inner) := by
    rw [← wordsOf_segments, h, List.nil_append]
  rw [hw]
  by_cases hs : s.IsBare
  · obtain ⟨p, hp, hl⟩ := hs
    cases s with
    | literal name => cases hp
    | parameter q =>
      cases hp
      simp [wordsOf, tokens_bare hl, IsBare, Segment.parameter?, hl, IsBraced, text]
  · refine iff_of_false hs ?_
    rintro ⟨word, hm, hb⟩
    exact not_isBraced_head_wordsOf h hs word hm hb

theorem parameter_of_segments {p : ParameterSegment}
    (h : url.segments.reverse = outer ++ .parameter p :: inner) :
    ∃ front, url.words = front ++ (UrlToken.parameter p.parameter).text :: wordsOf inner ∧
      (p.literal = "" ↔ ∀ word ∈ front.getLast?, IsBraced word) := by
  have hw := words_of_segments h
  by_cases hp : p.literal = ""
  · refine ⟨wordsOf outer, ?_, iff_of_true hp ?_⟩
    · rw [hw, tokens_bare hp, List.append_assoc]
      rfl
    · rcases List.eq_nil_or_concat' outer with rfl | ⟨front, t, rfl⟩
      · exact fun _ hn => nomatch hn
      · rw [List.append_assoc] at h
        exact isBraced_getLast_wordsOf ((within_of_segments h).bare (isBare_parameter.mpr hp)) front
  · refine ⟨wordsOf outer ++ [p.literal], ?_, iff_of_false hp ?_⟩
    · rw [hw, tokens_named hp, List.append_assoc, List.append_assoc]
      rfl
    · intro hb
      have hn : UrlToken.literal p.literal ∈ url.tokens :=
        mem_tokens_of_segment h (by simp [tokens_named hp])
      exact (literal_of_mem_tokens hn).2 (hb _ (by simp))

theorem literal_of_segments {name : String}
    (h : url.segments.reverse = outer ++ .literal name :: inner) :
    url.words = wordsOf outer ++ name :: wordsOf inner ∧ ¬ IsBraced name ∧
      ∀ word ∈ (wordsOf inner).head?, ¬ IsBraced word := by
  have hn : UrlToken.literal name ∈ url.tokens :=
    mem_tokens_of_segment h (by simp [Segment.tokens])
  refine ⟨?_, (literal_of_mem_tokens hn).2, ?_⟩
  · rw [words_of_segments h, List.append_assoc]
    rfl
  · cases inner with
    | nil => exact fun _ hw => nomatch hw
    | cons s inner =>
      -- a bare parameter would stand right behind a parameter
      have hs : ¬ s.IsBare := fun hb => Bool.false_ne_true ((within_of_segments h).bare hb)
      have hi : url.segments.reverse = (outer ++ [.literal name]) ++ s :: inner := by
        rw [h, List.append_assoc]
        rfl
      exact not_isBraced_head_wordsOf hi hs

/-- The innermost word decides, whatever comes before it. -/
theorem endsInParameter_iff (url : Url) :
    url.endsInParameter = true ↔ ∃ word ∈ url.words.getLast?, IsBraced word := by
  have hl : url.words.getLast? = url.tokens.reverse.head?.map text := by
    rw [words_eq, List.getLast?_map, List.head?_reverse]
  have hb : ∀ token ∈ url.tokens, (IsBraced token.text ↔ token.isParameter = true) := by
    intro token ht
    rw [tokens_eq] at ht
    obtain ⟨word, _, rfl⟩ := List.mem_map.mp ht
    rw [text_ofWord, isBraced_iff]
  unfold endsInParameter segments
  rw [hl]
  cases hr : url.tokens.reverse with
  | nil => simp [segmentsOf]
  | cons token rest =>
    have ht := hb token (List.mem_reverse.mp (by rw [hr]; exact List.mem_cons_self))
    simp only [List.head?_cons, Option.map_some, Option.mem_some_iff, exists_eq_left', ht]
    cases token with
    | literal name => simp [segmentsOf, Segment.isParameter, UrlToken.isParameter]
    | parameter name =>
      exact iff_of_true (isParameter_head_segmentsOf name rest) rfl

/-- The segments of a URL are its words, read one by one. -/
theorem readFromWords (url : Url) : url.ReadFromWords where
  written_eq := url.wordsOf_segments
  determined other h := by
    unfold segments
    rw [tokens_eq, h, ← tokens_eq]
  scope _ _ _ h := scope_iff h
  atMostOneScope := countP_scope_segmentsOf none _
  parameter _ _ _ h := parameter_of_segments h
  literal _ _ _ h := literal_of_segments h
  endsInParameter_iff := url.endsInParameter_iff

end Url

end Lifecycle

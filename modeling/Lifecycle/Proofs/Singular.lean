import Mathlib.Data.List.Basic
import Lifecycle.Identifier

/-!
# Singular of a path segment

A singular can be told from bytes: endings are looked for in a copy of the name with small ASCII
letters, and bytes are cut off the name itself. Bytes of ASCII characters are no part of any other
character, so such a cut falls between characters, and it leaves the singular that is told from
characters. One ending is cut off at most, and none can be cut off what is left.
-/
namespace Lifecycle

namespace Text

/-! ### Bytes -/

def bytes (s : String) : List UInt8 := s.toUTF8.data.toList

/-- A byte, made small if it is a capital ASCII letter. -/
def smallByte (b : UInt8) : UInt8 := if 65 ≤ b ∧ b ≤ 90 then b + 32 else b

/-- Whether the bytes of a text, made small, end with those of a word. -/
def endsInBytes (word s : String) : Bool :=
  (bytes word).isSuffixOf ((bytes s).map smallByte)

/-- A text without its last `n` bytes. There is none if the text is shorter or the cut falls inside
a character. -/
def cutBytes? (n : Nat) (s : String) : Option String :=
  if h : n ≤ s.utf8ByteSize ∧ String.Pos.Raw.IsValid s ⟨s.utf8ByteSize - n⟩ then
    some (s.sliceTo (s.pos ⟨s.utf8ByteSize - n⟩ h.2)).copy
  else none

def IsAscii (s : String) : Prop := ∀ c ∈ s.toList, c.toNat < 128

instance (s : String) : Decidable (IsAscii s) := List.decidableBAll _ s.toList

/-- A text that ends with a word of small letters, in any case of ASCII letters. -/
def EndsIn (word : String) (cs : List Char) : Prop := word.toList <:+ cs.map Char.toLower

instance (word : String) (cs : List Char) : Decidable (EndsIn word cs) :=
  inferInstanceAs (Decidable (_ <:+ _))

theorem bytes_eq (s : String) : bytes s = s.toList.flatMap String.utf8EncodeChar := by
  rw [bytes, String.toUTF8_eq_toByteArray, ← String.utf8Encode_toList, List.utf8Encode,
    List.toList_data_toByteArray]

variable {c : Char}

theorem utf8EncodeChar_of_ascii (h : c.toNat < 128) :
    String.utf8EncodeChar c = [UInt8.ofNat c.toNat] := by
  rw [String.utf8EncodeChar]
  exact if_pos (Nat.le_of_lt_succ h)

/-- The last byte of a character beyond ASCII is none of ASCII. -/
theorem utf8EncodeChar_of_not_ascii (h : 128 ≤ c.toNat) :
    ∃ front last, String.utf8EncodeChar c = front ++ [last] ∧ 128 ≤ last := by
  have hlast (n : Nat) : 128 ≤ UInt8.ofNat (n % 0x40 + 0x80) := by
    rw [UInt8.le_iff_toNat_le, UInt8.toNat_ofNat']
    have hn : n % 0x40 < 0x40 := Nat.mod_lt _ (by decide)
    change 128 ≤ _
    omega
  have hn : ¬ c.val.toNat ≤ 0x7f := Nat.not_le_of_lt h
  rw [String.utf8EncodeChar]
  simp only [if_neg hn]
  split
  · exact ⟨[_], _, rfl, hlast _⟩
  · split
    · exact ⟨[_, _], _, rfl, hlast _⟩
    · exact ⟨[_, _, _], _, rfl, hlast _⟩

theorem toLower_of_not_ascii (h : 128 ≤ c.toNat) : c.toLower = c := by
  have hletter : ¬ (c.val ≥ 'A'.val ∧ c.val ≤ 'Z'.val) := by
    rintro ⟨_, hz⟩
    have hle : c.toNat ≤ 90 := hz
    omega
  exact dif_neg hletter

theorem smallByte_of_ascii :
    ∀ n < 128, smallByte (UInt8.ofNat n) = UInt8.ofNat (Char.ofNat n).toLower.toNat ∧
      (Char.ofNat n).toLower.toNat < 128 := by
  decide +kernel

theorem smallByte_of_not_ascii {b : UInt8} (h : 128 ≤ b) : smallByte b = b := by
  rw [smallByte, if_neg]
  rintro ⟨_, hz⟩
  exact absurd (UInt8.le_trans h hz) (by decide)

theorem byte_inj {m n : Nat} (hm : m < 128) (hn : n < 128) :
    UInt8.ofNat m = UInt8.ofNat n ↔ m = n := by
  constructor
  · intro h
    have hmod := congrArg UInt8.toNat h
    rw [UInt8.toNat_ofNat', UInt8.toNat_ofNat'] at hmod
    omega
  · rintro rfl
    rfl

/-- Read from the end, bytes that spell an ASCII word are whole characters. -/
theorem prefix_bytes_iff {word : List Char} (hw : ∀ x ∈ word, x.toNat < 128) (cs : List Char) :
    word.map (UInt8.ofNat ·.toNat) <+:
        cs.flatMap (fun c => ((String.utf8EncodeChar c).map smallByte).reverse) ↔
      word <+: cs.map Char.toLower := by
  induction word generalizing cs with
  | nil => simp
  | cons x word ih =>
    obtain ⟨hx, hword⟩ := List.forall_mem_cons.mp hw
    cases cs with
    | nil => simp
    | cons c cs =>
      rw [List.map_cons, List.map_cons, List.flatMap_cons, List.cons_prefix_cons]
      by_cases hc : c.toNat < 128
      · obtain ⟨hsmall, hlower⟩ := smallByte_of_ascii c.toNat hc
        rw [Char.ofNat_toNat] at hsmall hlower
        rw [utf8EncodeChar_of_ascii hc, List.map_singleton, List.reverse_singleton,
          List.singleton_append, List.cons_prefix_cons, ih hword, hsmall, byte_inj hx hlower,
          Char.toNat_inj]
      · -- beyond ASCII neither the last byte nor the character is a letter of the word
        have hc := Nat.le_of_not_lt hc
        obtain ⟨front, last, he, hlast⟩ := utf8EncodeChar_of_not_ascii hc
        rw [he, List.map_append, List.map_singleton, List.reverse_append, List.reverse_singleton,
          List.singleton_append, List.cons_append, List.cons_prefix_cons,
          smallByte_of_not_ascii hlast, toLower_of_not_ascii hc]
        refine iff_of_false ?_ ?_
        · rintro ⟨rfl, _⟩
          rw [UInt8.le_iff_toNat_le, UInt8.toNat_ofNat'] at hlast
          have hbound : (128 : UInt8).toNat = 128 := rfl
          omega
        · rintro ⟨rfl, _⟩
          omega

/-- For a word in ASCII, comparing bytes is comparing characters. -/
theorem endsInBytes_iff {word : String} (hw : IsAscii word) (s : String) :
    endsInBytes word s = true ↔ EndsIn word s.toList := by
  have hword : bytes word = word.toList.map (UInt8.ofNat ·.toNat) := by
    rw [bytes_eq, List.map_eq_flatMap]
    exact List.flatMap_congr fun c hc => utf8EncodeChar_of_ascii (hw c hc)
  rw [endsInBytes, List.isSuffixOf_iff_suffix, EndsIn, ← List.reverse_prefix, ← List.reverse_prefix,
    hword, bytes_eq, List.map_flatMap, List.reverse_flatMap, ← List.map_reverse,
    ← List.map_reverse]
  exact prefix_bytes_iff (fun x hx => hw x (List.mem_reverse.mp hx)) s.toList.reverse

/-- A cut between characters is always granted. -/
theorem cutBytes?_append (front tail : String) :
    cutBytes? tail.utf8ByteSize (front ++ tail) = some front := by
  have hcut : (⟨(front ++ tail).utf8ByteSize - tail.utf8ByteSize⟩ : String.Pos.Raw) =
      front.rawEndPos := by
    rw [String.utf8ByteSize_append, Nat.add_sub_cancel]
    rfl
  have hvalid : String.Pos.Raw.IsValid (front ++ tail)
      ⟨(front ++ tail).utf8ByteSize - tail.utf8ByteSize⟩ :=
    String.Pos.Raw.isValid_iff_exists_append.mpr ⟨front, tail, rfl, hcut⟩
  rw [cutBytes?, dif_pos ⟨by rw [String.utf8ByteSize_append]; omega, hvalid⟩]
  exact congrArg some ((String.Pos.splits _).eq_left ⟨rfl, hcut⟩)

/-- A cut inside a character. -/
example : cutBytes? 1 "é" = none := by decide

/-! ### Endings -/

/-- A text is another one with an ending, which is given in small letters and may be in any case of
ASCII letters. -/
def HasEnding (s front ending : String) : Prop :=
  ∃ tail : String, s = front ++ tail ∧ tail.toList.map Char.toLower = ending.toList

variable {word name : String} {cs : List Char}

theorem shorten_append (front tail : List Char) : shorten tail.length (front ++ tail) = front := by
  rw [shorten, List.length_append, Nat.add_sub_cancel, List.take_left]

theorem EndsIn.exists_tail (h : EndsIn word cs) :
    ∃ tail, cs = shorten word.length cs ++ tail ∧ tail.map Char.toLower = word.toList := by
  obtain ⟨_, hsplit⟩ := h
  obtain ⟨front, tail, rfl, _, htail⟩ := List.map_eq_append_iff.mp hsplit.symm
  have hlength : word.length = tail.length := by
    rw [← String.length_toList, ← htail, List.length_map]
  refine ⟨tail, ?_, htail⟩
  rw [hlength, shorten_append]

/-- What ends with two words ends with the second one, and with the first one in front of it. -/
theorem endsIn_append_iff (first word : String) :
    EndsIn (first ++ word) cs ↔ EndsIn word cs ∧ EndsIn first (shorten word.length cs) := by
  have hfront {front : List Char} (h : cs.map Char.toLower = front ++ word.toList) :
      (shorten word.length cs).map Char.toLower = front := by
    rw [shorten, List.map_take, h, ← String.length_toList, ← List.length_map Char.toLower, h]
    exact shorten_append front word.toList
  unfold EndsIn
  rw [String.toList_append]
  constructor
  · rintro ⟨front, h⟩
    rw [← List.append_assoc] at h
    rw [hfront h.symm]
    exact ⟨⟨_, h⟩, List.suffix_append front first.toList⟩
  · rintro ⟨⟨front, h⟩, hfirst⟩
    rw [hfront h.symm] at hfirst
    obtain ⟨rest, rfl⟩ := hfirst
    rw [← h]
    exact ⟨rest, (List.append_assoc _ _ _).symm⟩

/-- Of two words at the end of a text the longer one ends with the other. -/
theorem EndsIn.suffix {other : String} (h : EndsIn word cs) (ho : EndsIn other cs)
    (hl : word.toList.length ≤ other.toList.length) : word.toList <:+ other.toList :=
  List.suffix_of_suffix_length_le h ho hl

theorem hasEnding_shorten (h : EndsIn word name.toList) :
    HasEnding name (String.ofList (shorten word.length name.toList)) word := by
  obtain ⟨tail, hname, htail⟩ := h.exists_tail
  refine ⟨String.ofList tail, ?_, by rw [String.toList_ofList, htail]⟩
  rw [← String.ofList_append, ← hname, String.ofList_toList]

theorem ascii_of_small {tail : List Char} (hw : IsAscii word)
    (h : tail.map Char.toLower = word.toList) : ∀ c ∈ tail, c.toNat < 128 := by
  intro c hc
  by_contra hbeyond
  have hlower := hw c.toLower (h ▸ List.mem_map_of_mem hc)
  rw [toLower_of_not_ascii (Nat.le_of_not_lt hbeyond)] at hlower
  exact hbeyond hlower

theorem utf8ByteSize_of_ascii (h : ∀ c ∈ cs, c.toNat < 128) :
    (String.ofList cs).utf8ByteSize = cs.length := by
  induction cs with
  | nil => rfl
  | cons c cs ih =>
    obtain ⟨hc, hcs⟩ := List.forall_mem_cons.mp h
    have hsize : c.utf8Size = 1 := Char.utf8Size_eq_one_iff.mpr (Nat.le_of_lt_succ hc)
    rw [String.ofList_cons, String.utf8ByteSize_append, String.utf8ByteSize_singleton, hsize,
      ih hcs, List.length_cons, Nat.add_comm]

/-- An ending of ASCII letters takes as many bytes as it has letters. -/
theorem HasEnding.exists_tail {front : String} (hw : IsAscii word)
    (h : HasEnding name front word) :
    ∃ tail, name = front ++ tail ∧ tail.utf8ByteSize = word.length ∧ tail.length = word.length := by
  obtain ⟨tail, hname, htail⟩ := h
  have hlength : tail.toList.length = word.length := by
    rw [← List.length_map Char.toLower, htail, String.length_toList]
  refine ⟨tail, hname, ?_, by rwa [← String.length_toList]⟩
  rw [← hlength, ← utf8ByteSize_of_ascii (ascii_of_small hw htail), String.ofList_toList]

theorem cutBytes?_of_endsIn (hw : IsAscii word) (h : EndsIn word name.toList) :
    cutBytes? word.length name = some (String.ofList (shorten word.length name.toList)) := by
  obtain ⟨tail, hname, hsize, _⟩ := (hasEnding_shorten h).exists_tail hw
  have hcut := cutBytes?_append (String.ofList (shorten word.length name.toList)) tail
  rwa [hsize, ← hname] at hcut

theorem length_lt_utf8ByteSize_iff (hw : IsAscii word) (h : EndsIn word name.toList) :
    word.length < name.utf8ByteSize ↔ word.length < name.toList.length := by
  obtain ⟨tail, hname, hsize, hlength⟩ := (hasEnding_shorten h).exists_tail hw
  generalize String.ofList (shorten word.length name.toList) = front at hname
  have hempty : front.utf8ByteSize = 0 ↔ front.length = 0 := by
    rw [String.utf8ByteSize_eq_zero_iff, String.length_eq_zero_iff]
  rw [hname, String.length_toList, String.utf8ByteSize_append, String.length_append]
  omega

end Text

/-! ### Singulars -/

open Text

variable {cs : List Char}

/-- The singular of a name as its bytes tell it. There is none if a character would be cut apart. -/
def singularByBytes? (name : String) : Option String :=
  if endsInBytes "ies" name && decide (3 < name.utf8ByteSize) then
    (cutBytes? 3 name).map (· ++ "y")
  else if ["sses", "xes", "ches", "shes"].any (endsInBytes · name) then cutBytes? 2 name
  else if endsInBytes "s" name && !endsInBytes "ss" name && decide (1 < name.utf8ByteSize) then
    cutBytes? 1 name
  else some name

/-- What words end in that have "es" in the plural. -/
def stems : List String := ["ss", "x", "ch", "sh"]

theorem singularWord_eq (cs : List Char) :
    singularWord cs =
      if EndsIn "ies" cs ∧ 3 < cs.length then shorten 3 cs ++ ['y']
      else if ∃ stem ∈ stems, EndsIn (stem ++ "es") cs then shorten 2 cs
      else if EndsIn "s" cs ∧ ¬ EndsIn "ss" cs ∧ 1 < cs.length then shorten 1 cs
      else cs := by
  simp [singularWord, EndsIn, stems, and_assoc, ← List.isSuffixOf_iff_suffix]

/-- Bytes tell a singular of every name, and it is the one that characters tell. -/
theorem singularByBytes?_eq (name : String) : singularByBytes? name = some (singular name) := by
  have hies : (endsInBytes "ies" name && decide (3 < name.utf8ByteSize)) = true ↔
      EndsIn "ies" name.toList ∧ 3 < name.toList.length := by
    rw [Bool.and_eq_true, decide_eq_true_eq, endsInBytes_iff (by decide)]
    exact and_congr_right fun h => length_lt_utf8ByteSize_iff (by decide) h
  have hes : ["sses", "xes", "ches", "shes"].any (endsInBytes · name) = true ↔
      ∃ stem ∈ stems, EndsIn (stem ++ "es") name.toList := by
    have hascii : ∀ stem ∈ stems, IsAscii (stem ++ "es") := by decide
    rw [show ["sses", "xes", "ches", "shes"] = stems.map (· ++ "es") from rfl, List.any_map,
      List.any_eq_true]
    exact exists_congr fun stem => and_congr_right fun h => endsInBytes_iff (hascii stem h) name
  have hs : (endsInBytes "s" name && !endsInBytes "ss" name &&
        decide (1 < name.utf8ByteSize)) = true ↔
      EndsIn "s" name.toList ∧ ¬ EndsIn "ss" name.toList ∧ 1 < name.toList.length := by
    rw [Bool.and_eq_true, Bool.and_eq_true, Bool.not_eq_true', ← Bool.not_eq_true,
      decide_eq_true_eq, endsInBytes_iff (by decide), endsInBytes_iff (by decide), and_assoc]
    exact and_congr_right fun h => and_congr_right fun _ =>
      length_lt_utf8ByteSize_iff (by decide) h
  simp only [singularByBytes?, singular, singularWord_eq, hies, hes, hs]
  split_ifs with h₁ h₂ h₃
  · have hcut := cutBytes?_of_endsIn (by decide) h₁.1
    rw [show 3 = "ies".length from rfl, hcut, Option.map_some, String.ofList_append]
  · obtain ⟨stem, _, hes⟩ := h₂
    exact cutBytes?_of_endsIn (by decide) ((endsIn_append_iff stem "es").mp hes).1
  · exact cutBytes?_of_endsIn (by decide) h₃.1
  · rw [String.ofList_toList]

/-- The singular is the name or what an ending leaves of it. -/
theorem singular_cases (name : String) :
    singular name = name ∨
      (∃ front, HasEnding name front "ies" ∧ singular name = front ++ "y") ∨
      HasEnding name (singular name) "es" ∨ HasEnding name (singular name) "s" := by
  rw [singular, singularWord_eq]
  split_ifs with h₁ h₂ h₃
  · have hcut := hasEnding_shorten h₁.1
    exact .inr (.inl ⟨_, hcut, String.ofList_append⟩)
  · obtain ⟨stem, _, hes⟩ := h₂
    have hcut := hasEnding_shorten ((endsIn_append_iff stem "es").mp hes).1
    exact .inr (.inr (.inl hcut))
  · have hcut := hasEnding_shorten h₃.1
    exact .inr (.inr (.inr hcut))
  · exact .inl String.ofList_toList

/-! ### Singulars of singulars -/

/-- A name that no ending is cut off. -/
def IsSingular (cs : List Char) : Prop := EndsIn "s" cs → EndsIn "ss" cs ∨ cs.length ≤ 1

theorem not_isSingular_of_es (h : EndsIn "es" cs) : ¬ IsSingular cs := by
  intro hsingular
  have hlength : 2 ≤ cs.length := by simpa using h.length_le
  rcases hsingular ((endsIn_append_iff "e" "s").mp h).1 with hss | hshort
  · exact absurd (hss.suffix h (by decide)) (by decide)
  · omega

theorem singularWord_of_isSingular (h : IsSingular cs) : singularWord cs = cs := by
  rw [singularWord_eq, if_neg, if_neg, if_neg]
  · rintro ⟨hs, hss, hlong⟩
    rcases h hs with h | h
    · exact hss h
    · omega
  · rintro ⟨stem, _, hes⟩
    exact not_isSingular_of_es ((endsIn_append_iff stem "es").mp hes).1 h
  · rintro ⟨hies, _⟩
    exact not_isSingular_of_es ((endsIn_append_iff "i" "es").mp hies).1 h

/-- One cut leaves no ending for another. -/
theorem isSingular_singularWord (cs : List Char) : IsSingular (singularWord cs) := by
  intro hs
  rw [singularWord_eq] at hs ⊢
  split_ifs at hs ⊢ with h₁ h₂ h₃
  · have hy : EndsIn "y" (shorten 3 cs ++ ['y']) := by
      rw [EndsIn, List.map_append]
      exact List.suffix_append _ _
    exact absurd (hs.suffix hy (by decide)) (by decide)
  · -- of the stems only the one of two letters ends in "s"
    obtain ⟨stem, hmem, hes⟩ := h₂
    have hstem : EndsIn stem (shorten 2 cs) := ((endsIn_append_iff stem "es").mp hes).2
    have hstems : ∀ stem ∈ stems,
        "s".toList.length ≤ stem.toList.length ∧ ("s".toList <:+ stem.toList → stem = "ss") := by
      decide
    obtain ⟨hlength, hss⟩ := hstems stem hmem
    rw [hss (hs.suffix hstem hlength)] at hstem
    exact .inl hstem
  · have hss := (endsIn_append_iff "s" "s").mpr ⟨h₃.1, hs⟩
    exact absurd hss h₃.2.1
  · by_contra hcut
    rw [not_or, Nat.not_le] at hcut
    exact h₃ ⟨hs, hcut⟩

/-- The names that are their own singulars. -/
theorem singular_eq_self_iff {name : String} : singular name = name ↔ IsSingular name.toList := by
  constructor
  · intro h
    have hsingular := isSingular_singularWord name.toList
    rwa [← String.toList_ofList (l := singularWord name.toList), ← singular, h] at hsingular
  · intro h
    rw [singular, singularWord_of_isSingular h, String.ofList_toList]

theorem isSingular_singular (name : String) : IsSingular (singular name).toList := by
  rw [singular, String.toList_ofList]
  exact isSingular_singularWord name.toList

/-- No cut falls inside a character, one ending is cut off at most, and a singular is its own
singular. -/
theorem singular_outcome (name : String) :
    singularByBytes? name = some (singular name) ∧
      (singular name = name ∨
        (∃ front, HasEnding name front "ies" ∧ singular name = front ++ "y") ∨
        HasEnding name (singular name) "es" ∨ HasEnding name (singular name) "s") ∧
      singular (singular name) = singular name :=
  ⟨singularByBytes?_eq name, singular_cases name,
    singular_eq_self_iff.mpr (isSingular_singular name)⟩

end Lifecycle

import CloudAudit.Url.Parse
import Mathlib.Data.List.Basic

set_option autoImplicit false

/- Text in a URL. Escapes read back as the bytes they stand for, and a percent sign is escaped
itself, so no two names are written alike and no name is written as dots but dots. -/
namespace CloudAudit.Url

/-! Escapes. -/

theorem hexValue?_hexDigit {n : Nat} (small : n < 16) : hexValue? (hexDigit n) = some n := by
  have all : ∀ n : Fin 16, hexValue? (hexDigit n) = some n.val := by decide
  exact all ⟨n, small⟩

theorem decodeBytes_escapeByte (b : UInt8) (rest : List Char) :
    decodeBytes (escapeByte b ++ rest) = b :: decodeBytes rest := by
  have bound : b.toNat < 256 := b.toNat_lt
  have whole : 16 * (b.toNat / 16) + b.toNat % 16 = b.toNat := Nat.div_add_mod _ _
  rw [escapeByte, List.cons_append, List.cons_append, List.cons_append, List.nil_append,
    decodeBytes, hexValue?_hexDigit (by omega), hexValue?_hexDigit (by omega)]
  simp only [whole, UInt8.ofNat_toNat]

theorem decodeBytes_escapeBytes (bs : List UInt8) (rest : List Char) :
    decodeBytes (bs.flatMap escapeByte ++ rest) = bs ++ decodeBytes rest := by
  induction bs with
  | nil => rfl
  | cons b bs ih =>
    rw [List.flatMap_cons, List.append_assoc, decodeBytes_escapeByte, ih, List.cons_append]

theorem decodeBytes_cons {c : Char} (plain : c ≠ '%') (rest : List Char) :
    decodeBytes (c :: rest) = String.utf8EncodeChar c ++ decodeBytes rest := by
  rw [decodeBytes]
  intro a b tail same _
  exact plain same

section

variable {escaped : Char → Bool}

/-- What is escaped reads back as its bytes. -/
theorem decodeBytes_encode (marked : escaped '%' = true) (cs : List Char) :
    decodeBytes (encode escaped cs) = cs.flatMap String.utf8EncodeChar := by
  induction cs with
  | nil => rfl
  | cons c rest ih =>
    have first : encode escaped (c :: rest) =
        (if 128 ≤ c.toNat || escaped c then escapeChar c else [c]) ++ encode escaped rest :=
      List.flatMap_cons
    rw [first, List.flatMap_cons]
    split
    · rw [escapeChar, decodeBytes_escapeBytes, ih]
    · next plain =>
      have other : c ≠ '%' := by
        rintro rfl
        simp [marked] at plain
      rw [List.singleton_append, decodeBytes_cons other, ih]

theorem hexDigit_ne {mark : Char} (small : mark.toNat < 48) {n : Nat} (bound : n < 16) :
    hexDigit n ≠ mark := by
  have all : ∀ n : Fin 16, 48 ≤ (hexDigit n).toNat := by decide
  rintro rfl
  exact absurd (all ⟨n, bound⟩) (Nat.not_le.mpr small)

/-- An escaped mark does not stand in a text, nor does one that was never in it. -/
theorem not_mem_encode {mark : Char} {cs : List Char} (small : mark.toNat < 48) (other : mark ≠ '%')
    (gone : escaped mark = true ∨ mark ∉ cs) : mark ∉ encode escaped cs := by
  intro member
  obtain ⟨c, listed, shown⟩ := List.mem_flatMap.mp member
  split at shown
  · obtain ⟨b, _, digit⟩ := List.mem_flatMap.mp shown
    have bound : b.toNat < 256 := b.toNat_lt
    simp only [escapeByte, List.mem_cons, List.not_mem_nil, or_false] at digit
    rcases digit with rfl | rfl | rfl
    · exact other rfl
    · exact hexDigit_ne small (by omega) rfl
    · exact hexDigit_ne small (by omega) rfl
  · next plain =>
    obtain rfl := List.mem_singleton.mp shown
    rcases gone with marked | absent
    · simp [marked] at plain
    · exact absent listed

theorem utf8_injective :
    Function.Injective fun cs : List Char => cs.flatMap String.utf8EncodeChar := by
  intro cs ds same
  have bytes : cs.utf8Encode = ds.utf8Encode := congrArg List.toByteArray same
  have chars := congrArg ByteArray.utf8Decode? bytes
  rw [List.utf8Decode?_utf8Encode, List.utf8Decode?_utf8Encode] at chars
  simpa using chars

theorem encode_injective (marked : escaped '%' = true) : Function.Injective (encode escaped) := by
  intro cs ds same
  have bytes := congrArg decodeBytes same
  rw [decodeBytes_encode marked, decodeBytes_encode marked] at bytes
  exact utf8_injective bytes

end

/-! Dots. -/

/-- A character, and the capital of a letter. -/
def withCapital (c : Char) : List Char :=
  if 97 ≤ c.toNat ∧ c.toNat ≤ 122 then [c, Char.ofNat (c.toNat - 32)] else [c]

theorem mem_withCapital (c : Char) : c ∈ withCapital c.toLower := by
  unfold Char.toLower
  split
  · next upper =>
    have range : 65 ≤ c.toNat ∧ c.toNat ≤ 90 :=
      ⟨UInt32.le_iff_toNat_le.mp upper.1, UInt32.le_iff_toNat_le.mp upper.2⟩
    have shift : (c.val + ('a'.val - 'A'.val)).toNat = c.toNat + 32 := by
      rw [UInt32.toNat_add, show ('a'.val - 'A'.val).toNat = 32 by decide, Char.toNat_val]
      omega
    rw [withCapital, ← Char.toNat_val, shift, if_pos (by omega), Nat.add_sub_cancel,
      Char.ofNat_toNat]
    exact List.mem_cons_of_mem _ (List.mem_singleton_self _)
  · unfold withCapital
    split <;> exact List.mem_cons_self

/-- All ways to write a text whose letters may be of either case. -/
def spellings (cs : List Char) : List (List Char) :=
  cs.foldr (fun c rest => (withCapital c).flatMap fun d => rest.map (d :: ·)) [[]]

theorem mem_spellings {cs text : List Char} (lower : cs.map Char.toLower = text) :
    cs ∈ spellings text := by
  subst lower
  induction cs with
  | nil => exact List.mem_singleton_self _
  | cons c rest ih =>
    rw [List.map_cons, spellings, List.foldr_cons, List.mem_flatMap]
    exact ⟨c, mem_withCapital c, List.mem_map_of_mem ih⟩

/-- However dots are written, they stand for dots. -/
theorem decodeBytes_dots {texts : List String} {bytes : List UInt8} {cs : List Char}
    (spelled : ∀ text ∈ texts, ∀ cs ∈ spellings text.toList, decodeBytes cs = bytes)
    (listed : texts.contains (String.ofList (cs.map Char.toLower)) = true) :
    decodeBytes cs = bytes :=
  spelled _ (List.contains_iff_mem.mp listed) cs (mem_spellings String.toList_ofList.symm)

theorem decodeBytes_of_isDot {cs : List Char} (dot : isDot cs = true) : decodeBytes cs = [46] :=
  decodeBytes_dots (by decide) dot

theorem decodeBytes_of_isDotDot {cs : List Char} (dots : isDotDot cs = true) :
    decodeBytes cs = [46, 46] :=
  decodeBytes_dots (by decide) dots

/-! Names. -/

/-- The characters of a name that mean something. -/
def kept (name : String) : List Char := name.toList.filter fun c => !isIgnored c

theorem segmentText_eq (special : Bool) (name : String) :
    segmentText special name = encode (inSegment special) (kept name) := rfl

theorem inSegment_percent (special : Bool) : inSegment special '%' = true := by
  cases special <;> decide

/-- Two names are written alike where they have the same characters. -/
theorem segmentText_inj {special : Bool} {name other : String} :
    segmentText special name = segmentText special other ↔ kept name = kept other :=
  (encode_injective (inSegment_percent special)).eq_iff

theorem decodeBytes_segmentText (special : Bool) (name : String) :
    decodeBytes (segmentText special name) = (kept name).flatMap String.utf8EncodeChar :=
  decodeBytes_encode (inSegment_percent special) _

/-- Only a dot is written as one. -/
theorem isDot_segmentText {special : Bool} {name : String} :
    isDot (segmentText special name) = true ↔ kept name = ['.'] := by
  constructor
  · intro dot
    have bytes := (decodeBytes_segmentText special name).symm.trans (decodeBytes_of_isDot dot)
    exact utf8_injective (bytes.trans (by decide))
  · intro dot
    rw [segmentText_eq, dot]
    cases special <;> decide

theorem isDotDot_segmentText {special : Bool} {name : String} :
    isDotDot (segmentText special name) = true ↔ kept name = ['.', '.'] := by
  constructor
  · intro dots
    have bytes := (decodeBytes_segmentText special name).symm.trans (decodeBytes_of_isDotDot dots)
    exact utf8_injective (bytes.trans (by decide))
  · intro dots
    rw [segmentText_eq, dots]
    cases special <;> decide

end CloudAudit.Url

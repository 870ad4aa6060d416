import TransactionLookup.Http.Percent
import TransactionLookup.Http.Uri

/-!
# Texts spelled in a path

Any text can stand in a segment of a path: letters, digits and four marks as they are, and the bytes
of all else escaped, with hexadecimal digits of either case. A segment that spells a text is made of
characters that may stand in a path, has no slash of its own, and is decoded to that very text.
-/

namespace TransactionLookup.Http

/-- Whether a byte is a character that is never escaped. -/
def isPlain (b : UInt8) : Bool :=
  let c := Char.ofNat b.toNat
  c.isAlphanum || c == '-' || c == '.' || c == '_' || c == '~'

/-- The hexadecimal digits of a number below sixteen, in either case. -/
def hexDigitsOf (n : Nat) : List Char := [Text.hexDigit n, (Text.hexDigit n).toUpper]

/-- Whether a segment spells some bytes, with an escape for each that is not plain. -/
inductive Spells : List UInt8 → List Char → Prop
  | none : Spells [] []
  | plain {b : UInt8} {bytes : List UInt8} {segment : List Char} (plain : isPlain b = true)
      (more : Spells bytes segment) : Spells (b :: bytes) (Char.ofNat b.toNat :: segment)
  | escaped {b : UInt8} {bytes : List UInt8} {high low : Char} {segment : List Char}
      (special : isPlain b = false) (first : high ∈ hexDigitsOf (b.toNat / 16))
      (second : low ∈ hexDigitsOf (b.toNat % 16)) (more : Spells bytes segment) :
      Spells (b :: bytes) ('%' :: high :: low :: segment)

variable {b : UInt8} {bytes : List UInt8} {segment : List Char} {high low : Char}

/-! ## Single bytes -/

theorem plain_byte (b : UInt8) (plain : isPlain b = true) :
    isPathChar (Char.ofNat b.toNat) = true ∧ Char.ofNat b.toNat ≠ '/' ∧ Char.ofNat b.toNat ≠ '%' ∧
      String.utf8EncodeChar (Char.ofNat b.toNat) = [b] := by
  have all : ∀ n < 256, isPlain (UInt8.ofNat n) = true →
      isPathChar (Char.ofNat n) = true ∧ Char.ofNat n ≠ '/' ∧ Char.ofNat n ≠ '%' ∧
        String.utf8EncodeChar (Char.ofNat n) = [UInt8.ofNat n] := by decide +kernel
  have here := all b.toNat b.toNat_lt
  rw [UInt8.ofNat_toNat] at here
  exact here plain

theorem hexDigitsOf_char : ∀ n < 16, ∀ c ∈ hexDigitsOf n,
    Json.hexValue? c = some n ∧ isPathChar c = true ∧ c ≠ '/' := by
  have all : ∀ n < 16, ((hexDigitsOf n).all fun c =>
      decide (Json.hexValue? c = some n ∧ isPathChar c = true ∧ c ≠ '/')) = true := by decide
  intro n small c member
  exact of_decide_eq_true (List.all_eq_true.mp (all n small) c member)

/-- A byte has two hexadecimal digits, each of one of sixteen values. -/
theorem digits_small (b : UInt8) : b.toNat / 16 < 16 ∧ b.toNat % 16 < 16 := by
  have := b.toNat_lt
  omega

theorem byteOfHex?_digits (first : high ∈ hexDigitsOf (b.toNat / 16))
    (second : low ∈ hexDigitsOf (b.toNat % 16)) : byteOfHex? high low = some b := by
  have front := (hexDigitsOf_char _ (digits_small b).1 high first).1
  have back := (hexDigitsOf_char _ (digits_small b).2 low second).1
  have whole : 16 * (b.toNat / 16) + b.toNat % 16 = b.toNat := Nat.div_add_mod b.toNat 16
  simp only [byteOfHex?, front, back, whole, UInt8.ofNat_toNat]

theorem percentDecode_cons_of_ne {c : Char} (unescaped : c ≠ '%') (rest : List Char) :
    percentDecode (c :: rest) = String.utf8EncodeChar c ++ percentDecode rest := by
  match rest with
  | [] => simp [percentDecode]
  | [_] => simp [percentDecode]
  | _ :: _ :: _ => rw [percentDecode, if_neg unescaped]

theorem percentDecode_escape (first : high ∈ hexDigitsOf (b.toNat / 16))
    (second : low ∈ hexDigitsOf (b.toNat % 16)) (rest : List Char) :
    percentDecode ('%' :: high :: low :: rest) = b :: percentDecode rest := by
  rw [percentDecode, if_pos rfl, byteOfHex?_digits first second]

/-! ## Segments -/

namespace Spells

theorem decode (spells : Spells bytes segment) : percentDecode segment = bytes := by
  induction spells with
  | none => rfl
  | plain plain more ih =>
    obtain ⟨-, -, unescaped, byte⟩ := plain_byte _ plain
    rw [percentDecode_cons_of_ne unescaped, byte, ih]
    rfl
  | escaped special first second more ih => rw [percentDecode_escape first second, ih]

theorem pathChars (spells : Spells bytes segment) :
    ∀ c ∈ segment, isPathChar c = true ∧ c ≠ '/' := by
  induction spells with
  | none => nofun
  | plain plain more ih =>
    obtain ⟨path, whole, -, -⟩ := plain_byte _ plain
    exact List.forall_mem_cons.mpr ⟨⟨path, whole⟩, ih⟩
  | @escaped b _ _ _ _ special first second more ih =>
    have front := (hexDigitsOf_char _ (digits_small b).1 _ first).2
    have back := (hexDigitsOf_char _ (digits_small b).2 _ second).2
    have percent : isPathChar '%' = true ∧ '%' ≠ '/' := by decide
    simp only [List.forall_mem_cons]
    exact ⟨percent, front, back, ih⟩

theorem ne_nil (spells : Spells bytes segment) (given : bytes ≠ []) : segment ≠ [] := by
  cases spells with
  | none => exact absurd rfl given
  | plain => exact List.cons_ne_nil _ _
  | escaped => exact List.cons_ne_nil _ _

/-- Reading back what spells a text gives that text, and not one of another case or form. -/
theorem decodeText {h : String} (spells : Spells (Text.utf8 h.toList) segment) :
    decodeText? segment = some h := by
  rw [decodeText?, spells.decode]
  exact Text.ofUtf8?_eq_some_iff.mpr rfl

end Spells

/-! ## Targets -/

theorem not_query_of_isPathChar {c : Char} (path : isPathChar c = true) : c ≠ '?' ∧ c ≠ '#' := by
  constructor <;> (rintro rfl; revert path; decide)

/-- A target of characters that may stand in a path is that path, and has no query. -/
theorem pathOfTarget_of_pathChars {path : List Char} (all : ∀ c ∈ path, isPathChar c = true)
    (short : Text.utf8Length ('/' :: path) ≤ uriLimit) :
    pathOfTarget ('/' :: path) = .ok ('/' :: path) := by
  have whole : ∀ c ∈ '/' :: path, isPathChar c = true :=
    List.forall_mem_cons.mpr ⟨by decide, all⟩
  have inPath : ∀ c ∈ '/' :: path, (c != '?' && c != '#') = true := by
    intro c member
    obtain ⟨noQuery, noFragment⟩ := not_query_of_isPathChar (whole c member)
    simp [noQuery, noFragment]
  have uncut : ('/' :: path).takeWhile (fun c => c != '?' && c != '#') = '/' :: path := by
    rw [← List.append_nil ('/' :: path), List.takeWhile_append_of_pos inPath, List.takeWhile_nil]
  have fine : ('/' :: path).all isPathChar = true := List.all_eq_true.mpr whole
  rw [pathOfTarget, if_neg (Nat.not_lt.mpr short)]
  simp only [readPath, uncut, fine, List.drop_length]
  rfl

end TransactionLookup.Http

import TransactionLookup.Proofs.Text.Order

/-!
# Code points

Two texts compare by their bytes as they do by the numbers of their characters
(`compareUtf8_eq_codePoints`). The bytes of a character are the digits of its number in base 64, the
most significant one first, with a mark on the first byte that is the greater the more bytes follow it.
So of two characters the one with the smaller number has the smaller byte where their bytes first
differ, whatever stands behind them and whether or not they take the same number of bytes.
-/

namespace TransactionLookup.Text

/-- The numbers of the characters of a text. -/
def codePoints (text : List Char) : List Nat := text.map Char.toNat

/-! ## Lexicographic comparison -/

section Lexicographic

variable {α : Type} [Ord α]

theorem compare_append_left [Std.ReflOrd α] (shared xs ys : List α) :
    compare (shared ++ xs) (shared ++ ys) = compare xs ys := by
  induction shared with
  | nil => rfl
  | cons x shared ih =>
    rw [List.cons_append, List.cons_append, List.compare_cons_cons, Std.compare_self, ih]
    rfl

theorem compare_eq_lt_iff_lex [LT α] [LE α] [Std.LawfulOrderOrd α] [Std.LawfulOrderLT α]
    [Std.LawfulEqOrd α] {xs ys : List α} :
    compare xs ys = .lt ↔ List.Lex (· < ·) xs ys := by
  induction xs generalizing ys with
  | nil =>
    cases ys with
    | nil => simp
    | cons y ys => simp
  | cons x xs ih =>
    cases ys with
    | nil => simp
    | cons y ys =>
      rw [List.compare_cons_cons, Ordering.then_eq_lt, Std.compare_eq_lt,
        Std.LawfulEqCmp.compare_eq_iff_eq, ih]
      exact List.cons_lex_cons_iff.symm

end Lexicographic

/-! ## Characters -/

/-- A number in base 64, the most significant digit first: so many digits, each as a later byte, behind
a first byte with a mark. -/
def spread (mark : Nat) : Nat → Nat → List UInt8
  | 0, n => [UInt8.ofNat (n + mark)]
  | more + 1, n => spread mark more (n / 64) ++ [UInt8.ofNat (n % 64 + 128)]

/-- What is left of a number without so many digits at its end. -/
def leading : Nat → Nat → Nat
  | 0, n => n
  | more + 1, n => leading more (n / 64)

/-- The mark on the first byte of the character with that number, and how many bytes follow it. -/
inductive Width (n : Nat) : (mark more : Nat) → Prop
  | one (above : n < 0x80) : Width n 0 0
  | two (below : 0x80 ≤ n) (above : n < 0x800) : Width n 192 1
  | three (below : 0x800 ≤ n) (above : n < 0x10000) : Width n 224 2
  | four (below : 0x10000 ≤ n) (above : n < 0x110000) : Width n 240 3

variable {m n mark mark' more more' : Nat}

theorem spread_eq_cons (mark more n : Nat) :
    ∃ later, spread mark more n = UInt8.ofNat (leading more n + mark) :: later := by
  induction more generalizing n with
  | zero => exact ⟨[], rfl⟩
  | succ more ih =>
    obtain ⟨later, first⟩ := ih (n / 64)
    refine ⟨later ++ [UInt8.ofNat (n % 64 + 128)], ?_⟩
    rw [spread, first, List.cons_append, leading]

theorem compare_ofNat_cons (less : m < n) (fits : n < 256) (xs ys : List UInt8) :
    compare (UInt8.ofNat m :: xs) (UInt8.ofNat n :: ys) = .lt := by
  have bytes : UInt8.ofNat m < UInt8.ofNat n :=
    (UInt8.ofNat_lt_iff_lt (Nat.lt_trans less fits) fits).mpr less
  rw [List.compare_cons_cons, Std.compare_eq_lt.mpr bytes]
  rfl

/-- Of two numbers with as many digits, the smaller one has the smaller digit where they differ. -/
theorem compare_spread (less : m < n) (fits : leading more n + mark < 256) (xs ys : List UInt8) :
    compare (spread mark more m ++ xs) (spread mark more n ++ ys) = .lt := by
  induction more generalizing m n xs ys with
  | zero => exact compare_ofNat_cons (Nat.add_lt_add_right less mark) fits xs ys
  | succ more ih =>
    rw [spread, spread, List.append_assoc, List.append_assoc]
    obtain front | front : m / 64 < n / 64 ∨ m / 64 = n / 64 := by omega
    · exact ih front fits _ _
    · -- the digits in front are the same, so the last ones differ
      rw [front, compare_append_left]
      exact compare_ofNat_cons (by omega) (by omega) xs ys

theorem compare_spread_of_first (first : leading more m + mark < leading more' n + mark')
    (fits : leading more' n + mark' < 256) (xs ys : List UInt8) :
    compare (spread mark more m ++ xs) (spread mark' more' n ++ ys) = .lt := by
  obtain ⟨later, small⟩ := spread_eq_cons mark more m
  obtain ⟨later', large⟩ := spread_eq_cons mark' more' n
  rw [small, large]
  exact compare_ofNat_cons first fits _ _

/-- No first byte overflows. -/
theorem Width.fits (width : Width n mark more) : leading more n + mark < 256 := by
  cases width <;> dsimp only [leading] <;> omega

/-- Of two numbers, the greater one has as many bytes as the smaller one or a greater first byte. -/
theorem Width.same_or_first (width : Width m mark more) (width' : Width n mark' more')
    (less : m < n) :
    (mark = mark' ∧ more = more') ∨ leading more m + mark < leading more' n + mark' := by
  -- the first bytes of one width end where those of the next begin
  cases width <;> cases width' <;> dsimp only [leading] <;> omega

theorem exists_width (c : Char) :
    ∃ mark more, Width c.toNat mark more ∧
      String.utf8EncodeChar c = spread mark more c.toNat := by
  have valid : c.toNat < 0xD800 ∨ 0xDFFF < c.toNat ∧ c.toNat < 0x110000 := c.valid
  have bytes := String.utf8EncodeChar.eq_1 c
  rw [Char.toNat_val] at bytes
  -- within its width, the remainder that is taken of the first digit leaves it as it is
  split at bytes
  · exact ⟨0, 0, .one (by omega), bytes⟩
  · split at bytes
    · refine ⟨192, 1, .two (by omega) (by omega), ?_⟩
      rw [bytes, Nat.mod_eq_of_lt (a := c.toNat / 64) (by omega)]
      rfl
    · split at bytes
      · refine ⟨224, 2, .three (by omega) (by omega), ?_⟩
        rw [bytes, Nat.mod_eq_of_lt (a := c.toNat / 4096) (by omega)]
        simp [spread, Nat.div_div_eq_div_mul]
      · refine ⟨240, 3, .four (by omega) (by omega), ?_⟩
        rw [bytes, Nat.mod_eq_of_lt (a := c.toNat / 262144) (by omega)]
        simp [spread, Nat.div_div_eq_div_mul]

/-- The character with the smaller number has the smaller byte where their bytes first differ. -/
theorem compare_utf8EncodeChar {c d : Char} (less : c.toNat < d.toNat) (xs ys : List UInt8) :
    compare (String.utf8EncodeChar c ++ xs) (String.utf8EncodeChar d ++ ys) = .lt := by
  obtain ⟨mark, more, width, bytes⟩ := exists_width c
  obtain ⟨mark', more', width', bytes'⟩ := exists_width d
  rw [bytes, bytes']
  obtain ⟨rfl, rfl⟩ | first := width.same_or_first width' less
  · exact compare_spread less width'.fits xs ys
  · exact compare_spread_of_first first width'.fits xs ys

/-! ## Texts -/

theorem utf8_cons (c : Char) (text : List Char) :
    utf8 (c :: text) = String.utf8EncodeChar c ++ utf8 text :=
  List.flatMap_cons

theorem compare_nil_utf8_cons (c : Char) (text : List Char) :
    compare [] (utf8 (c :: text)) = .lt := by
  obtain ⟨mark, more, -, bytes⟩ := exists_width c
  obtain ⟨later, first⟩ := spread_eq_cons mark more c.toNat
  rw [utf8_cons, bytes, first]
  rfl

theorem compare_utf8 (a b : List Char) :
    compare (utf8 a) (utf8 b) = compare (codePoints a) (codePoints b) := by
  induction a generalizing b with
  | nil =>
    cases b with
    | nil => rfl
    | cons d b => exact compare_nil_utf8_cons d b
  | cons c a ih =>
    cases b with
    | nil =>
      rw [Std.OrientedOrd.eq_swap]
      exact congrArg Ordering.swap (compare_nil_utf8_cons c a)
    | cons d b =>
      rw [utf8_cons, utf8_cons, codePoints, codePoints, List.map_cons, List.map_cons,
        List.compare_cons_cons]
      obtain less | same | more := Nat.lt_trichotomy c.toNat d.toNat
      · rw [compare_utf8EncodeChar less, Nat.compare_eq_lt.mpr less]
        rfl
      · obtain rfl := Char.toNat_inj.mp same
        rw [compare_append_left, ih, Std.compare_self]
        rfl
      · rw [Std.OrientedOrd.eq_swap, compare_utf8EncodeChar more, Nat.compare_eq_gt.mpr more]
        rfl

/-- Texts compare by their bytes as by the numbers of their characters. -/
theorem compareUtf8_eq_codePoints (a b : String) :
    compareUtf8 a b = compare (codePoints a.toList) (codePoints b.toList) :=
  compare_utf8 a.toList b.toList

theorem compareUtf8_lt_iff_bytes {a b : String} :
    compareUtf8 a b = .lt ↔ List.Lex (· < ·) (utf8 a.toList) (utf8 b.toList) :=
  compare_eq_lt_iff_lex

theorem compareUtf8_lt_iff_codePoints {a b : String} :
    compareUtf8 a b = .lt ↔ List.Lex (· < ·) (codePoints a.toList) (codePoints b.toList) := by
  rw [compareUtf8_eq_codePoints, compare_eq_lt_iff_lex]

end TransactionLookup.Text

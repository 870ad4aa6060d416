/-!
# Text as bytes

The UTF-8 form of a text: its bytes, their number, reading them back, and the order of two texts
by their bytes.
-/

namespace TransactionLookup.Text

def utf8 (text : List Char) : List UInt8 := text.flatMap String.utf8EncodeChar

def utf8Length (text : List Char) : Nat := text.foldr (fun c n => c.utf8Size + n) 0

/-- The text that the bytes encode, if they are UTF-8. -/
def ofUtf8? (bytes : List UInt8) : Option String :=
  String.fromUTF8? (ByteArray.mk bytes.toArray)

def compareUtf8 (a b : String) : Ordering := compare (utf8 a.toList) (utf8 b.toList)

theorem utf8_append (a b : List Char) : utf8 (a ++ b) = utf8 a ++ utf8 b := by
  simp [utf8]

theorem utf8Length_append (a b : List Char) :
    utf8Length (a ++ b) = utf8Length a + utf8Length b := by
  induction a with
  | nil => simp [utf8Length]
  | cons c rest ih =>
    simp only [utf8Length, List.cons_append, List.foldr_cons] at ih ⊢
    rw [ih, Nat.add_assoc]

theorem length_utf8 (text : List Char) : (utf8 text).length = utf8Length text := by
  induction text with
  | nil => rfl
  | cons c rest ih =>
    have tail : (utf8 rest).length = utf8Length rest := ih
    simp only [utf8, utf8Length, List.flatMap_cons, List.length_append, List.foldr_cons] at tail ⊢
    rw [tail, String.length_utf8EncodeChar]

theorem utf8_toByteArray (s : String) : ByteArray.mk (utf8 s.toList).toArray = s.toByteArray := by
  apply ByteArray.ext
  rw [← String.utf8Encode_toList, List.utf8Encode, List.data_toByteArray, utf8]

theorem ofUtf8?_eq_some_iff {bytes : List UInt8} {s : String} :
    ofUtf8? bytes = some s ↔ utf8 s.toList = bytes := by
  unfold ofUtf8? String.fromUTF8?
  constructor
  · intro read
    split at read
    next valid =>
      obtain rfl := Option.some.inj read
      have same := utf8_toByteArray (String.fromUTF8 _ valid)
      simpa [String.fromUTF8] using same
    · cases read
  · rintro rfl
    -- the bytes of a text are UTF-8, since that is what a text is made of
    have same := utf8_toByteArray s
    rw [dif_pos (same ▸ s.isValidUTF8)]
    simp only [String.fromUTF8, same]

end TransactionLookup.Text

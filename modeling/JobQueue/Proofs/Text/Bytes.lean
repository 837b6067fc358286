/-! # Texts and their bytes

In UTF-8 a greater character has greater bytes: a longer character begins with a greater byte, and among
characters of one length the first byte that differs decides. So texts order like their bytes.
-/

namespace JobQueue.Text

/-- The bytes of a text in UTF-8. -/
def bytes (text : String) : List UInt8 := text.toUTF8.data.toList

theorem bytes_eq (text : String) : bytes text = text.toList.flatMap String.utf8EncodeChar := by
  have encoded : text.toByteArray = text.toList.utf8Encode := by
    conv => lhs; rw [← String.ofList_toList (s := text)]
    exact String.toByteArray_ofList
  rw [bytes, String.toUTF8_eq_toByteArray, encoded, List.utf8Encode, List.data_toByteArray]

/-- A character that is less has less bytes, whatever follows. -/
theorem utf8EncodeChar_lt {first second : Char} (less : first < second) (rest other : List UInt8) :
    String.utf8EncodeChar first ++ rest < String.utf8EncodeChar second ++ other := by
  have order : first.val.toNat < second.val.toNat := less
  have range : second.val.toNat < 0x110000 := by
    have := second.valid
    unfold UInt32.isValidChar Nat.isValidChar at this
    omega
  unfold String.utf8EncodeChar
  generalize first.val.toNat = v at order
  generalize second.val.toNat = w at order range
  -- where both have one length, the first digit to base 64 that differs decides
  simp only
  repeat' split
  all_goals
    simp only [List.cons_append, List.nil_append, List.cons_lt_cons_iff, UInt8.lt_iff_toNat_lt,
      ← UInt8.toNat_inj, UInt8.toNat_ofNat']
    simp (disch := omega) only [Nat.mod_eq_of_lt]
    omega

theorem flatMap_utf8EncodeChar_lt {first second : List Char} (less : first < second) :
    first.flatMap String.utf8EncodeChar < second.flatMap String.utf8EncodeChar := by
  induction less with
  | @nil c rest =>
    rw [List.flatMap_nil, List.flatMap_cons]
    obtain ⟨byte, more, same⟩ := List.exists_cons_of_ne_nil (@String.utf8EncodeChar_ne_nil c)
    rw [same]
    exact List.nil_lt_cons _ _
  | cons less ih =>
    rw [List.flatMap_cons, List.flatMap_cons]
    exact List.append_left_lt ih
  | rel less =>
    rw [List.flatMap_cons, List.flatMap_cons]
    exact utf8EncodeChar_lt less _ _

/-- Texts order like their bytes. -/
theorem bytes_lt_iff {first second : String} : bytes first < bytes second ↔ first < second := by
  have forward {one other : String} (less : one < other) : bytes one < bytes other := by
    rw [bytes_eq, bytes_eq]
    exact flatMap_utf8EncodeChar_lt less
  refine ⟨?_, forward⟩
  intro less
  apply Classical.byContradiction
  intro notLess
  by_cases same : first = second
  · subst same
    exact List.lt_irrefl _ less
  · have more : second < first := Std.lt_of_le_of_ne (String.not_lt.mp notLess) (Ne.symm same)
    exact List.lt_asymm less (forward more)

theorem bytes_le_iff {first second : String} : bytes first ≤ bytes second ↔ first ≤ second := by
  rw [← List.not_lt, ← String.not_lt, bytes_lt_iff]

end JobQueue.Text

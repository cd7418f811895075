import Mathlib.Data.List.DropRight
import Kerosene.Lib.Digest

/-! Text as the standard library of the source takes it apart: `str::trim`, which goes by the
characters Unicode calls white space, `str::split` at a character, and `read_to_string`, which
takes the bytes of a text only. Of text in ASCII, the first bytes are the first characters
(`take_utf8`), and hexadecimal text that is cut off decodes to fewer bytes
(`length_of_hexBytes`). -/
namespace Kerosene.Lib.Text

open Encode Digest

/-- Unicode's `White_Space`. -/
def isWhiteSpace (c : Char) : Bool :=
  (0x9 ≤ c.val && c.val ≤ 0xd) || c.val == 0x20 || c.val == 0x85 || c.val == 0xa0 ||
    c.val == 0x1680 || (0x2000 ≤ c.val && c.val ≤ 0x200a) || c.val == 0x2028 || c.val == 0x2029 ||
    c.val == 0x202f || c.val == 0x205f || c.val == 0x3000

def trim (s : String) : String :=
  String.ofList ((s.toList.dropWhile isWhiteSpace).rdropWhile isWhiteSpace)

def split (separator : Char) (s : String) : List String :=
  (s.toList.splitOn separator).map String.ofList

/-- The text of bytes, if they are the bytes of one. -/
def ofUtf8 (bytes : Bytes) : Option String := String.fromUTF8? ⟨bytes.toArray⟩

/-! ### Bytes of text -/

theorem ofUtf8_utf8 (s : String) : ofUtf8 (utf8 s) = some s := by
  have hbytes : (⟨(utf8 s).toArray⟩ : ByteArray) = s.toByteArray := by
    rw [utf8, Array.toArray_toList]
  rw [ofUtf8, hbytes, String.fromUTF8?, dif_pos s.isValidUTF8]
  rfl

theorem utf8_of_ofUtf8 {bytes : Bytes} {s : String} (h : ofUtf8 bytes = some s) : utf8 s = bytes := by
  unfold ofUtf8 String.fromUTF8? at h
  split at h
  case isTrue hvalid =>
    cases h
    rfl
  case isFalse => cases h

/-- A character has at least one byte. -/
theorem length_le_length_utf8 (cs : List Char) : cs.length ≤ (utf8 (String.ofList cs)).length := by
  induction cs with
  | nil => exact Nat.zero_le _
  | cons c rest ih =>
    have hpos := c.utf8Size_pos
    rw [String.ofList_cons, utf8_append, List.length_append, utf8_length (String.singleton c),
      String.utf8ByteSize_singleton, List.length_cons]
    omega

/-- The first bytes of text in ASCII are its first characters. -/
theorem take_utf8 {cs : List Char} (h : ∀ c ∈ cs, c.utf8Size = 1) (n : ℕ) :
    (utf8 (String.ofList cs)).take n = utf8 (String.ofList (cs.take n)) := by
  induction cs generalizing n with
  | nil =>
    rw [List.take_nil]
    exact List.take_nil
  | cons c rest ih =>
    obtain ⟨hc, hrest⟩ := List.forall_mem_cons.mp h
    have hlength : (utf8 (String.singleton c)).length = 1 := by
      rw [utf8_length, String.utf8ByteSize_singleton, hc]
    cases n with
    | zero => rfl
    | succ n =>
      rw [String.ofList_cons, utf8_append, List.take_append, hlength, List.take_of_length_le (by omega),
        Nat.add_sub_cancel, ih hrest, List.take_succ_cons, String.ofList_cons, utf8_append]

/-! ### Trimming -/

theorem trim_ofList {cs : List Char} (h : ∀ c ∈ cs, isWhiteSpace c = false) :
    trim (String.ofList cs) = String.ofList cs := by
  rw [trim, String.toList_ofList]
  congr 1
  rw [List.dropWhile_eq_self_iff.mpr fun hlength => by simp [h _ (List.getElem_mem hlength)],
    List.rdropWhile_eq_self_iff.mpr fun hne => by simp [h _ (List.getLast_mem hne)]]

theorem trim_ofList_concat {cs : List Char} (h : ∀ c ∈ cs, isWhiteSpace c = false) {last : Char}
    (hlast : isWhiteSpace last = true) (hne : cs ≠ []) :
    trim (String.ofList (cs ++ [last])) = String.ofList cs := by
  have hfirst : (cs ++ [last]).dropWhile isWhiteSpace = cs ++ [last] := by
    cases cs with
    | nil => exact absurd rfl hne
    | cons c rest =>
      rw [List.cons_append, List.dropWhile_cons_of_neg (by simp [h c List.mem_cons_self])]
  rw [trim, String.toList_ofList, hfirst, List.rdropWhile_concat_pos _ _ _ hlast,
    List.rdropWhile_eq_self_iff.mpr fun hne => by simp [h _ (List.getLast_mem hne)]]

theorem length_trim_le (s : String) : (trim s).toList.length ≤ s.toList.length := by
  have hend := List.rdropWhile_prefix isWhiteSpace (s.toList.dropWhile isWhiteSpace)
  rw [trim, String.toList_ofList]
  exact hend.length_le.trans (List.dropWhile_suffix _).length_le

/-! ### Hexadecimal text -/

theorem length_of_hexBytes {cs : List Char} {b : Bytes} (h : hexBytes cs = some b) :
    cs.length = 2 * b.length := by
  fun_induction hexBytes cs generalizing b with
  | case1 =>
    cases h
    rfl
  | case2 high low rest ih =>
    simp only [Option.bind_eq_bind, Option.bind_eq_some_iff, Option.pure_def, Option.some.injEq] at h
    obtain ⟨_, _, _, _, t, ht, rfl⟩ := h
    simp only [List.length_cons, ih ht]
    omega
  | case3 => cases h

theorem length_hexChars (b : Bytes) : (hexChars b).length = 2 * b.length :=
  length_of_hexBytes (hexBytes_hexChars b)

theorem isWhiteSpace_hexDigit {n : ℕ} (h : n < 16) : isWhiteSpace (hexDigit n) = false := by
  interval_cases n <;> decide

/-- What holds of all digits holds of all characters of hexadecimal text. -/
theorem forall_mem_hexChars {P : Char → Prop} (h : ∀ n < 16, P (hexDigit n)) (b : Bytes) :
    ∀ c ∈ hexChars b, P c := by
  induction b with
  | nil => exact fun c hc => absurd hc List.not_mem_nil
  | cons x rest ih =>
    have hx := x.toNat_lt
    rw [hexChars, List.forall_mem_cons, List.forall_mem_cons]
    exact ⟨h _ (by omega), h _ (by omega), ih⟩

end Kerosene.Lib.Text

import Kerosene.Lib.Word

/-! Byte strings and the encoders hashed messages are built from.

A message is a concatenation of pieces. A piece of fixed width (`leBytes`) or a
text (`utf8`) determines what it encodes, and two concatenations agree piece by
piece as soon as the pieces have the same widths, which is all that `List.append_inj` asks. -/
namespace Kerosene.Lib.Encode

abbrev Bytes := List UInt8

/-- The bytes of a text. -/
def utf8 (s : String) : Bytes := s.toByteArray.data.toList

theorem utf8_injective : Function.Injective utf8 := by
  intro s t h
  apply String.toByteArray_inj.mp
  apply ByteArray.ext
  exact Array.toList_inj.mp h

@[simp] theorem utf8_inj {s t : String} : utf8 s = utf8 t ↔ s = t := utf8_injective.eq_iff

theorem utf8_length (s : String) : (utf8 s).length = s.utf8ByteSize := rfl

@[simp] theorem utf8_empty : utf8 "" = [] := rfl

theorem utf8_append (s t : String) : utf8 (s ++ t) = utf8 s ++ utf8 t := by
  simp [utf8]

/-- The low `width` bytes of a number, least significant first. -/
def leBytes : Nat → Nat → Bytes
  | 0, _ => []
  | width + 1, v => UInt8.ofNat v :: leBytes width (v / 256)

@[simp] theorem leBytes_length (width v : Nat) : (leBytes width v).length = width := by
  induction width generalizing v with
  | zero => rfl
  | succ width ih => simp [leBytes, ih]

theorem leBytes_inj {width a b : Nat} (ha : a < 256 ^ width) (hb : b < 256 ^ width)
    (h : leBytes width a = leBytes width b) : a = b := by
  induction width generalizing a b with
  | zero =>
    rw [pow_zero] at ha hb
    omega
  | succ width ih =>
    simp only [leBytes, List.cons.injEq] at h
    have hlow : a % 256 = b % 256 := by
      have := congrArg UInt8.toNat h.1
      simpa only [UInt8.toNat_ofNat'] using this
    rw [pow_succ] at ha hb
    have hhigh : a / 256 = b / 256 := ih (by omega) (by omega) h.2
    omega

def le64 (v : UInt64) : Bytes := leBytes 8 v.toNat

def le32 (v : UInt32) : Bytes := leBytes 4 v.toNat

@[simp] theorem le64_length (v : UInt64) : (le64 v).length = 8 := leBytes_length ..

theorem le64_injective : Function.Injective le64 := by
  intro a b h
  exact UInt64.toNat_inj.mp (leBytes_inj a.toNat_lt b.toNat_lt h)

/-- The number that bytes stand for, the least significant first. -/
def ofLeBytes : Bytes → Nat
  | [] => 0
  | b :: rest => b.toNat + 256 * ofLeBytes rest

theorem ofLeBytes_leBytes (width v : Nat) : ofLeBytes (leBytes width v) = v % 256 ^ width := by
  induction width generalizing v with
  | zero => simp [leBytes, ofLeBytes, Nat.mod_one]
  | succ width ih =>
    have hlow : (UInt8.ofNat v).toNat = v % 256 := UInt8.toNat_ofNat'
    rw [leBytes, ofLeBytes, ih, hlow, pow_succ', Nat.mod_mul]

/-- The number in eight bytes. -/
def ofLe64 (b : Bytes) : Option UInt64 :=
  if b.length = 8 then some (UInt64.ofNat (ofLeBytes b)) else none

theorem ofLe64_le64 (v : UInt64) : ofLe64 (le64 v) = some v := by
  have hlt : v.toNat < 256 ^ 8 := v.toNat_lt
  rw [ofLe64, if_pos (le64_length v), le64, ofLeBytes_leBytes, Nat.mod_eq_of_lt hlt,
    UInt64.ofNat_toNat]

/-! ### Byte order

Sorting compares byte strings lexicographically. -/

def bytesLe (a b : Bytes) : Prop := ¬ b < a

instance : DecidableRel bytesLe := fun a b => inferInstanceAs (Decidable (¬ b < a))

section Sorting
variable {α : Type} (key : α → Bytes)

/-- A list sorted by the bytes of a key is in order. -/
theorem pairwise_sorted (l : List α) :
    (l.insertionSort fun a b => bytesLe (key a) (key b)).Pairwise
      fun a b => bytesLe (key a) (key b) := by
  have : Std.Total fun a b => bytesLe (key a) (key b) := ⟨fun a b => List.le_total (key a) (key b)⟩
  have : IsTrans α fun a b => bytesLe (key a) (key b) := ⟨fun _ _ _ h h' => List.le_trans h h'⟩
  exact List.pairwise_insertionSort _ l

variable {key}

/-- Sorted by a key that tells the elements apart, a list forgets its order. -/
theorem sorted_eq_of_perm {l l' : List α} (hkey : ∀ a ∈ l, ∀ b ∈ l, key a = key b → a = b)
    (h : l.Perm l') :
    (l.insertionSort fun a b => bytesLe (key a) (key b)) =
      l'.insertionSort fun a b => bytesLe (key a) (key b) := by
  have hl := List.perm_insertionSort (fun a b => bytesLe (key a) (key b)) l
  have hl' := List.perm_insertionSort (fun a b => bytesLe (key a) (key b)) l'
  refine List.Perm.eq_of_pairwise (fun a b ha hb hab hba => ?_) (pairwise_sorted key l)
    (pairwise_sorted key l') (hl.trans (h.trans hl'.symm))
  exact hkey a (hl.subset ha) b (h.symm.subset (hl'.subset hb)) (List.le_antisymm hab hba)

end Sorting

example : le64 0x0102 = [2, 1, 0, 0, 0, 0, 0, 0] := by decide

end Kerosene.Lib.Encode

import Kerosene.Lib.Encode

/-! SHA-256 and hexadecimal text, both executable.

Words are `BitVec 32` and the message schedule is a window of sixteen words, so a
digest is computed by structural recursion and can be evaluated in a proof.
`fromHex_toHex` is the round trip of hexadecimal text. -/
namespace Kerosene.Lib.Digest

open Encode

/-! ### SHA-256 -/

abbrev Word := BitVec 32

/-- The round constants. -/
def roundConstants : List Word := [
  0x428a2f98, 0x71374491, 0xb5c0fbcf, 0xe9b5dba5, 0x3956c25b, 0x59f111f1, 0x923f82a4, 0xab1c5ed5,
  0xd807aa98, 0x12835b01, 0x243185be, 0x550c7dc3, 0x72be5d74, 0x80deb1fe, 0x9bdc06a7, 0xc19bf174,
  0xe49b69c1, 0xefbe4786, 0x0fc19dc6, 0x240ca1cc, 0x2de92c6f, 0x4a7484aa, 0x5cb0a9dc, 0x76f988da,
  0x983e5152, 0xa831c66d, 0xb00327c8, 0xbf597fc7, 0xc6e00bf3, 0xd5a79147, 0x06ca6351, 0x14292967,
  0x27b70a85, 0x2e1b2138, 0x4d2c6dfc, 0x53380d13, 0x650a7354, 0x766a0abb, 0x81c2c92e, 0x92722c85,
  0xa2bfe8a1, 0xa81a664b, 0xc24b8b70, 0xc76c51a3, 0xd192e819, 0xd6990624, 0xf40e3585, 0x106aa070,
  0x19a4c116, 0x1e376c08, 0x2748774c, 0x34b0bcb5, 0x391c0cb3, 0x4ed8aa4a, 0x5b9cca4f, 0x682e6ff3,
  0x748f82ee, 0x78a5636f, 0x84c87814, 0x8cc70208, 0x90befffa, 0xa4506ceb, 0xbef9a3f7, 0xc67178f2]

/-- The eight working words. -/
structure Working where
  a : Word
  b : Word
  c : Word
  d : Word
  e : Word
  f : Word
  g : Word
  h : Word

def Working.initial : Working :=
  ⟨0x6a09e667, 0xbb67ae85, 0x3c6ef372, 0xa54ff53a, 0x510e527f, 0x9b05688c, 0x1f83d9ab, 0x5be0cd19⟩

def Working.add (x y : Working) : Working :=
  ⟨x.a + y.a, x.b + y.b, x.c + y.c, x.d + y.d, x.e + y.e, x.f + y.f, x.g + y.g, x.h + y.h⟩

def rotr (n : Nat) (x : Word) : Word := (x >>> n) ||| (x <<< (32 - n))

/-- The word that enters the schedule's window next. -/
def scheduled (window : List Word) : Word :=
  let early := window.getD 1 0
  let late := window.getD 14 0
  (rotr 17 late ^^^ rotr 19 late ^^^ (late >>> 10)) + window.getD 9 0 +
    (rotr 7 early ^^^ rotr 18 early ^^^ (early >>> 3)) + window.getD 0 0

def round (x : Working) (k w : Word) : Working :=
  let choice := (x.e &&& x.f) ^^^ (~~~ x.e &&& x.g)
  let majority := (x.a &&& x.b) ^^^ (x.a &&& x.c) ^^^ (x.b &&& x.c)
  let t₁ := x.h + (rotr 6 x.e ^^^ rotr 11 x.e ^^^ rotr 25 x.e) + choice + k + w
  let t₂ := (rotr 2 x.a ^^^ rotr 13 x.a ^^^ rotr 22 x.a) + majority
  ⟨t₁ + t₂, x.a, x.b, x.c, x.d + t₁, x.e, x.f, x.g⟩

def rounds : List Word → List Word → Working → Working
  | [], _, x => x
  | k :: ks, window, x =>
    rounds ks (window.tail ++ [scheduled window]) (round x k (window.getD 0 0))

def compress (x : Working) (block : List Word) : Working := x.add (rounds roundConstants block x)

/-- Sixteen words at a time. -/
def blocks : Nat → List Word → Working → Working
  | 0, _, x => x
  | n + 1, words, x => blocks n (words.drop 16) (compress x (words.take 16))

/-- A number in `width` bytes, most significant first. -/
def beBytes (width v : Nat) : Bytes := (leBytes width v).reverse

def pad (m : Bytes) : Bytes :=
  m ++ [0x80] ++ List.replicate ((119 - m.length % 64) % 64) 0 ++ beBytes 8 (8 * m.length)

def toWords : Bytes → List Word
  | a :: b :: c :: d :: rest =>
    BitVec.ofNat 32 (((a.toNat * 256 + b.toNat) * 256 + c.toNat) * 256 + d.toNat) :: toWords rest
  | _ => []

def Working.toBytes (x : Working) : Bytes :=
  [x.a, x.b, x.c, x.d, x.e, x.f, x.g, x.h].flatMap fun w => beBytes 4 w.toNat

theorem Working.length_toBytes (x : Working) : x.toBytes.length = 32 := by
  simp [Working.toBytes, beBytes]

def sha256 (m : Bytes) : Vector UInt8 32 :=
  let padded := pad m
  let x := blocks (padded.length / 64) (toWords padded) .initial
  ⟨x.toBytes.toArray, x.length_toBytes⟩

/-! ### Hexadecimal text -/

def hexDigit (n : Nat) : Char := "0123456789abcdef".toList.getD n '0'

def digitValue (c : Char) : Option Nat :=
  if '0' ≤ c ∧ c ≤ '9' then some (c.toNat - '0'.toNat)
  else if 'a' ≤ c ∧ c ≤ 'f' then some (c.toNat - 'a'.toNat + 10)
  else if 'A' ≤ c ∧ c ≤ 'F' then some (c.toNat - 'A'.toNat + 10)
  else none

def hexChars : Bytes → List Char
  | [] => []
  | b :: rest => hexDigit (b.toNat / 16) :: hexDigit (b.toNat % 16) :: hexChars rest

/-- Two digits a byte, in lower case. -/
def toHex (b : Bytes) : String := String.ofList (hexChars b)

def hexBytes : List Char → Option Bytes
  | [] => some []
  | high :: low :: rest => do
    let h ← digitValue high
    let l ← digitValue low
    let b ← hexBytes rest
    return UInt8.ofNat (16 * h + l) :: b
  | _ => none

/-- Digits of either case; an odd number of them is refused. -/
def fromHex (s : String) : Option Bytes := hexBytes s.toList

theorem digitValue_hexDigit {n : Nat} (h : n < 16) : digitValue (hexDigit n) = some n := by
  interval_cases n <;> decide

theorem utf8Size_hexDigit {n : Nat} (h : n < 16) : (hexDigit n).utf8Size = 1 := by
  interval_cases n <;> decide

theorem hexBytes_hexChars (b : Bytes) : hexBytes (hexChars b) = some b := by
  induction b with
  | nil => rfl
  | cons x rest ih =>
    have hx := x.toNat_lt
    rw [hexChars, hexBytes, digitValue_hexDigit (by omega), digitValue_hexDigit (by omega), ih]
    show some (UInt8.ofNat (16 * (x.toNat / 16) + x.toNat % 16) :: rest) = _
    rw [Nat.div_add_mod, UInt8.ofNat_toNat]

theorem fromHex_toHex (b : Bytes) : fromHex (toHex b) = some b := by
  rw [fromHex, toHex, String.toList_ofList]
  exact hexBytes_hexChars b

theorem toHex_size (b : Bytes) : (toHex b).utf8ByteSize = 2 * b.length := by
  unfold toHex
  induction b with
  | nil => rfl
  | cons x rest ih =>
    have hx := x.toNat_lt
    rw [hexChars, String.ofList_cons, String.ofList_cons, String.utf8ByteSize_append,
      String.utf8ByteSize_append, ih, String.utf8ByteSize_singleton, String.utf8ByteSize_singleton,
      utf8Size_hexDigit (by omega), utf8Size_hexDigit (by omega), List.length_cons]
    omega

/-- A digit in upper case. -/
def isUpperDigit (c : Char) : Bool := 'A' ≤ c && c ≤ 'F'

theorem ascii_of_digitValue {c : Char} {n : ℕ} (h : digitValue c = some n) : c.toNat < 128 := by
  have hle {b : Char} (hb : c ≤ b) : c.toNat ≤ b.toNat := UInt32.le_iff_toNat_le.mp hb
  unfold digitValue at h
  split_ifs at h with hdigit hlower hupper
  · exact (hle hdigit.2).trans_lt (by decide)
  · exact (hle hlower.2).trans_lt (by decide)
  · exact (hle hupper.2).trans_lt (by decide)

theorem digits_ascii : ∀ k < 128, ∀ n ∈ digitValue (Char.ofNat k),
    n < 16 ∧ (hexDigit n = Char.ofNat k ↔ isUpperDigit (Char.ofNat k) = false) := by
  decide +kernel

/-- A digit that is read is the one written for its value, or in upper case. -/
theorem hexDigit_eq_iff {c : Char} {n : ℕ} (h : digitValue c = some n) :
    n < 16 ∧ (hexDigit n = c ↔ isUpperDigit c = false) := by
  have hascii := digits_ascii c.toNat (ascii_of_digitValue h)
  rw [Char.ofNat_toNat] at hascii
  exact hascii n h

theorem hexChars_eq_iff {cs : List Char} {b : Bytes} (h : hexBytes cs = some b) :
    hexChars b = cs ↔ ∀ c ∈ cs, isUpperDigit c = false := by
  fun_induction hexBytes cs generalizing b with
  | case1 =>
    cases h
    exact iff_of_true rfl (fun _ => nofun)
  | case2 high low rest ih =>
    simp only [Option.bind_eq_bind, Option.bind_eq_some_iff, Option.pure_def, Option.some.injEq] at h
    obtain ⟨m, hm, n, hn, t, ht, rfl⟩ := h
    obtain ⟨hm16, hhigh⟩ := hexDigit_eq_iff hm
    obtain ⟨hn16, hlow⟩ := hexDigit_eq_iff hn
    have hbyte : (UInt8.ofNat (16 * m + n)).toNat = 16 * m + n :=
      UInt8.toNat_ofNat_of_lt' (by show _ < 256; omega)
    rw [hexChars, hbyte, show (16 * m + n) / 16 = m by omega, show (16 * m + n) % 16 = n by omega,
      List.cons_eq_cons, List.cons_eq_cons, hhigh, hlow, ih ht, List.forall_mem_cons,
      List.forall_mem_cons]
  | case3 => cases h

/-- Text that is read is the one written for its bytes exactly when no digit of it is in
upper case. -/
theorem toHex_eq_iff {s : String} {b : Bytes} (h : fromHex s = some b) :
    toHex b = s ↔ ∀ c ∈ s.toList, isUpperDigit c = false := by
  rw [← hexChars_eq_iff h, toHex]
  constructor
  · intro hs
    rw [← hs, String.toList_ofList]
  · intro hs
    rw [hs, String.ofList_toList]

example : toHex (sha256 (utf8 "abc")).toList =
    "ba7816bf8f01cfea414140de5dae2223b00361a396177a9cb410ff61f20015ad" := by decide +kernel

end Kerosene.Lib.Digest

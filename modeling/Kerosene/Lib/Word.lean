import Mathlib

/-! Machine words: checked arithmetic on 64-bit unsigned words, counters, and
reading a decimal number that has to fit a width. -/
namespace Kerosene.Lib.Word

/-! ### Checked arithmetic -/

def checkedAdd (a b : UInt64) : Option UInt64 :=
  if a.toNat + b.toNat < 2 ^ 64 then some (a + b) else none

def checkedSub (a b : UInt64) : Option UInt64 :=
  if b ≤ a then some (a - b) else none

/-- The sum, or the largest word when it does not fit. -/
def saturatingAdd (a b : UInt64) : UInt64 := UInt64.ofNat (min (a.toNat + b.toNat) (2 ^ 64 - 1))

/-- The difference, or 0 when it would be negative. -/
def saturatingSub (a b : UInt64) : UInt64 := if b ≤ a then a - b else 0

/-- The distance of two words. -/
def absDiff (a b : UInt64) : UInt64 := if b ≤ a then a - b else b - a

theorem toNat_add_of_lt {a b : UInt64} (h : a.toNat + b.toNat < 2 ^ 64) :
    (a + b).toNat = a.toNat + b.toNat := by
  rw [UInt64.toNat_add, Nat.mod_eq_of_lt h]

theorem toNat_saturatingAdd (a b : UInt64) :
    (saturatingAdd a b).toNat = min (a.toNat + b.toNat) (2 ^ 64 - 1) := by
  rw [saturatingAdd, UInt64.toNat_ofNat', Nat.mod_eq_of_lt]
  omega

theorem le_saturatingAdd (a b : UInt64) : a ≤ saturatingAdd a b := by
  have hlt := a.toNat_lt
  rw [UInt64.le_iff_toNat_le, toNat_saturatingAdd]
  omega

@[simp] theorem saturatingSub_self (a : UInt64) : saturatingSub a a = 0 := by
  rw [saturatingSub, if_pos UInt64.le_rfl, UInt64.sub_self]

/-- A sum that clamps at every step. -/
def saturatingSum (l : List UInt64) : UInt64 := l.foldl saturatingAdd 0

/-- Clamping at every step, and each summand before, is clamping once at the end. -/
theorem toNat_saturatingSum {α : Type} {g : α → UInt64} {f : α → ℕ}
    (h : ∀ a, (g a).toNat = min (f a) (2 ^ 64 - 1)) (l : List α) :
    (saturatingSum (l.map g)).toNat = min (l.map f).sum (2 ^ 64 - 1) := by
  have hfold (acc : UInt64) : ((l.map g).foldl saturatingAdd acc).toNat =
      min (acc.toNat + (l.map f).sum) (2 ^ 64 - 1) := by
    induction l generalizing acc with
    | nil =>
      have := acc.toNat_lt
      simp only [List.map_nil, List.foldl_nil, List.sum_nil]
      omega
    | cons a rest ih =>
      rw [List.map_cons, List.foldl_cons, ih, toNat_saturatingAdd, h, List.map_cons, List.sum_cons]
      omega
  rw [saturatingSum, hfold]
  exact congrArg (min · _) (Nat.zero_add _)

/-- A counter below its maximum steps up by one. -/
theorem toNat_succ {a : UInt64} (h : a.toNat + 1 < 2 ^ 64) : (a + 1).toNat = a.toNat + 1 :=
  toNat_add_of_lt h

/-- Only the largest word has no successor. -/
theorem succ_lt_of_ne_max {a : UInt64} (h : a ≠ 0xffffffffffffffff) : a.toNat + 1 < 2 ^ 64 := by
  have hlt := a.toNat_lt
  have hne : a.toNat ≠ 2 ^ 64 - 1 := fun h' => h (UInt64.toNat_inj.mp h')
  omega

/-- Numbers less than a turn apart are told apart by their words. -/
theorem eq_of_ofNat_eq {m n : ℕ} (h : UInt64.ofNat m = UInt64.ofNat n) (hle : m ≤ n)
    (hlt : n < m + 2 ^ 64) : m = n := by
  have hmod := congrArg UInt64.toNat h
  rw [UInt64.toNat_ofNat', UInt64.toNat_ofNat'] at hmod
  omega

/-! ### Decimal numbers -/

inductive IntErrorKind where
  | empty
  | invalidDigit
  | posOverflow
  deriving DecidableEq, Repr

def IntErrorKind.display : IntErrorKind → String
  | .empty => "cannot parse integer from empty string"
  | .invalidDigit => "invalid digit found in string"
  | .posOverflow => "number too large to fit in target type"

/-- Reads digits from the left. The value so far has to stay below `bound` after
every digit; a character that is not a digit is reported before an overflow at
the same place. -/
def parseDigits (bound : Nat) : Nat → List Char → Except IntErrorKind Nat
  | acc, [] => .ok acc
  | acc, c :: rest =>
    if c.isDigit then
      if 10 * acc + (c.toNat - '0'.toNat) < bound then
        parseDigits bound (10 * acc + (c.toNat - '0'.toNat)) rest
      else .error .posOverflow
    else .error .invalidDigit

/-- An unsigned number: a single leading `+` is allowed, a sign alone is not. -/
def parseUnsigned (bound : Nat) (s : String) : Except IntErrorKind Nat :=
  match s.toList with
  | [] => .error .empty
  | ['+'] => .error .invalidDigit
  | '+' :: digits => parseDigits bound 0 digits
  | digits => parseDigits bound 0 digits

def parseU64 (s : String) : Except IntErrorKind UInt64 :=
  (parseUnsigned (2 ^ 64) s).map UInt64.ofNat

def parseU32 (s : String) : Except IntErrorKind UInt32 :=
  (parseUnsigned (2 ^ 32) s).map UInt32.ofNat

/-- Digits whose value fits are read to it: the value so far never exceeds it. -/
theorem parseDigits_ok {bound acc : ℕ} {l : List Char} (hdigits : ∀ c ∈ l, c.isDigit = true)
    (hbound : Nat.ofDigitChars 10 l acc < bound) :
    parseDigits bound acc l = .ok (Nat.ofDigitChars 10 l acc) := by
  induction l generalizing acc with
  | nil => rw [parseDigits, Nat.ofDigitChars_nil]
  | cons c rest ih =>
    rw [Nat.ofDigitChars_cons] at hbound ⊢
    have hle : 10 * acc + (c.toNat - '0'.toNat) ≤
        Nat.ofDigitChars 10 rest (10 * acc + (c.toNat - '0'.toNat)) := by
      rw [Nat.ofDigitChars_eq_ofDigitChars_zero]
      have hpow : 0 < 10 ^ rest.length := Nat.pow_pos (by decide)
      have hmul := Nat.le_mul_of_pos_left (10 * acc + (c.toNat - '0'.toNat)) hpow
      omega
    rw [parseDigits, if_pos (hdigits c List.mem_cons_self), if_pos (hle.trans_lt hbound)]
    exact ih (fun d hd => hdigits d (List.mem_cons_of_mem _ hd)) hbound

/-- A number that fits is read back from its digits. -/
theorem parseUnsigned_toString {bound n : ℕ} (h : n < bound) :
    parseUnsigned bound (toString n) = .ok n := by
  have hdigits : ∀ c ∈ Nat.toDigits 10 n, c.isDigit = true := fun c hc =>
    Nat.isDigit_of_mem_toDigits (by decide) (by decide) hc
  have hparse : parseDigits bound 0 (Nat.toDigits 10 n) = .ok n := by
    have hfits : Nat.ofDigitChars 10 (Nat.toDigits 10 n) 0 < bound := by
      rw [Nat.ofDigitChars_ten_toDigits]
      exact h
    rw [parseDigits_ok hdigits hfits, Nat.ofDigitChars_ten_toDigits]
  unfold parseUnsigned
  rw [Nat.toString_eq_ofList_toDigits, String.toList_ofList]
  cases hd : Nat.toDigits 10 n with
  | nil => exact absurd hd Nat.toDigits_ne_nil
  | cons c rest =>
    rw [hd] at hdigits hparse
    have hsign : c ≠ '+' := by
      intro hc
      have hdigit := hdigits c List.mem_cons_self
      rw [hc] at hdigit
      cases hdigit
    split
    · cases ‹_›
    · cases ‹_›
      exact absurd rfl hsign
    · cases ‹_›
      exact absurd rfl hsign
    · exact hparse

theorem parseU32_toString (v : UInt32) : parseU32 (toString v) = .ok v := by
  have hparse : parseUnsigned (2 ^ 32) (toString v.toNat) = .ok v.toNat :=
    parseUnsigned_toString v.toNat_lt
  show (parseUnsigned (2 ^ 32) (toString v.toNat)).map UInt32.ofNat = .ok v
  rw [hparse]
  exact congrArg Except.ok (UInt32.ofNat_toNat)

theorem toString_injective : Function.Injective (toString : UInt64 → String) := by
  intro v v' h
  have hparse (w : UInt64) : parseUnsigned (2 ^ 64) (toString w) = .ok w.toNat :=
    parseUnsigned_toString w.toNat_lt
  have hsame := hparse v
  rw [h, hparse v'] at hsame
  exact (UInt64.toNat_inj.mp (Except.ok.inj hsame)).symm

/-! ### Text split at a separator -/

def splitOnceList (sep : Char) : List Char → Option (List Char × List Char)
  | [] => none
  | c :: rest =>
    if c = sep then some ([], rest)
    else (splitOnceList sep rest).map fun p => (c :: p.1, p.2)

/-- The text before and after the first `sep`. -/
def splitOnce (sep : Char) (s : String) : Option (String × String) :=
  (splitOnceList sep s.toList).map fun p => (String.ofList p.1, String.ofList p.2)

example : splitOnce '|' "alice|bob|carol" = some ("alice", "bob|carol") := by decide

theorem splitOnceList_eq_some {sep : Char} {l a b : List Char} :
    splitOnceList sep l = some (a, b) ↔ l = a ++ sep :: b ∧ sep ∉ a := by
  induction l generalizing a with
  | nil => simp [splitOnceList]
  | cons c rest ih =>
    rw [splitOnceList]
    by_cases hc : c = sep
    · rw [if_pos hc, hc]
      cases a with
      | nil => simp [eq_comm]
      | cons d a =>
        constructor
        · intro h
          cases h
        · intro h
          obtain ⟨hl, ha⟩ := h
          exact absurd (List.mem_cons.mpr (.inl (List.cons.inj hl).1)) ha
    · rw [if_neg hc]
      cases a with
      | nil => simp [hc]
      | cons d a =>
        have hsplit : (splitOnceList sep rest).map (fun p => (c :: p.1, p.2)) = some (d :: a, b) ↔
            c = d ∧ splitOnceList sep rest = some (a, b) := by
          cases splitOnceList sep rest <;> simp [Prod.ext_iff, and_assoc]
        rw [hsplit, ih, List.cons_append, List.cons.injEq, List.mem_cons, not_or]
        constructor
        · intro h
          obtain ⟨rfl, hrest, ha⟩ := h
          exact ⟨⟨rfl, hrest⟩, Ne.symm hc, ha⟩
        · intro h
          exact ⟨h.1.1, h.1.2, h.2.2⟩

/-- A text splits at a separator that the first part does not hold. -/
theorem splitOnce_eq_some {sep : Char} {s a b : String} :
    splitOnce sep s = some (a, b) ↔ s.toList = a.toList ++ sep :: b.toList ∧ sep ∉ a.toList := by
  rw [← splitOnceList_eq_some, splitOnce]
  cases splitOnceList sep s.toList with
  | none => simp
  | some p =>
    simp only [Option.map_some, Option.some.injEq, Prod.ext_iff]
    rw [← String.toList_inj, ← String.toList_inj, String.toList_ofList, String.toList_ofList]

/-- A text is cut in one way only at a separator that the second part does not hold. -/
theorem eq_of_append_sep {sep : Char} {a a' b b' : List Char} (h : a ++ sep :: b = a' ++ sep :: b')
    (hb : sep ∉ b) (hb' : sep ∉ b') : a = a' ∧ b = b' := by
  rcases List.append_eq_append_iff.mp h with ⟨c, ha, hc⟩ | ⟨c, ha, hc⟩
  · cases c with
    | nil => exact ⟨by simpa using ha.symm, (List.cons.inj hc).2⟩
    | cons d c =>
      have hmem : sep ∈ b := by
        rw [(List.cons.inj hc).2]
        exact List.mem_append_right _ List.mem_cons_self
      exact absurd hmem hb
  · cases c with
    | nil => exact ⟨by simpa using ha, (List.cons.inj hc).2.symm⟩
    | cons d c =>
      have hmem : sep ∈ b' := by
        rw [(List.cons.inj hc).2]
        exact List.mem_append_right _ List.mem_cons_self
      exact absurd hmem hb'

end Kerosene.Lib.Word

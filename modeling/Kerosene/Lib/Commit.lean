import Kerosene.Lib.Encode

/-! What the hash of a composed message commits to.

A scheme of hashes over hashes adds no weakness of its own when its messages can
be taken apart again: either two of the messages hashed collide (`Collision`) or
equal hashes mean equal contents. Pieces that mark their own end
(`SelfDelimiting`) can be taken off the front of a message one by one, and a list
hashed item by item is bound up to its order (`perm_of_map_perm`). -/
namespace Kerosene.Lib.Commit

variable {α β δ : Type}

/-! ### Collisions -/

/-- Two different inputs of a list have one hash. -/
def Collision (hash : α → δ) (inputs : List α) : Prop :=
  ∃ a ∈ inputs, ∃ b ∈ inputs, a ≠ b ∧ hash a = hash b

theorem Collision.mono {hash : α → δ} {inputs inputs' : List α} (h : Collision hash inputs)
    (hsub : inputs ⊆ inputs') : Collision hash inputs' := by
  obtain ⟨a, ha, b, hb, hne, heq⟩ := h
  exact ⟨a, hsub ha, b, hsub hb, hne, heq⟩

/-- Hashing the same inputs twice adds no collision. -/
theorem Collision.of_append_self {hash : α → δ} {inputs : List α}
    (h : Collision hash (inputs ++ inputs)) : Collision hash inputs :=
  h.mono (List.append_subset.mpr ⟨fun _ hm => hm, fun _ hm => hm⟩)

/-- Without a collision, a hash determines its input. -/
theorem eq_of_hash_eq {hash : α → δ} {inputs : List α} (hfree : ¬ Collision hash inputs) {a b : α}
    (ha : a ∈ inputs) (hb : b ∈ inputs) (h : hash a = hash b) : a = b := by
  by_contra hne
  exact hfree ⟨a, ha, b, hb, hne, h⟩

/-- Inputs whose hashes differ in some part of the hash do not collide. -/
theorem not_collision_of_nodup {hash : α → δ} {inputs : List α} (part : δ → β)
    (h : (inputs.map fun a => part (hash a)).Nodup) : ¬ Collision hash inputs := by
  intro hc
  obtain ⟨a, ha, b, hb, hne, heq⟩ := hc
  exact hne (List.inj_on_of_nodup_map h ha hb (congrArg part heq))

/-- Lists whose images are permutations of each other are permutations of each
other, as long as the map tells their elements apart. -/
theorem perm_of_map_perm {f : α → β} {l l' : List α}
    (hinj : ∀ a ∈ l, ∀ b ∈ l', f a = f b → a = b) (h : (l.map f).Perm (l'.map f)) :
    l.Perm l' := by
  classical
  induction l generalizing l' with
  | nil =>
    have hnil : l' = [] := by simpa using h.symm
    rw [hnil]
  | cons a l ih =>
    have hmem : f a ∈ l'.map f := h.subset List.mem_cons_self
    obtain ⟨b, hb, hfb⟩ := List.mem_map.mp hmem
    have hab : a = b := hinj a List.mem_cons_self b hb hfb.symm
    subst hab
    have herase := List.perm_cons_erase hb
    have hrest : (l.map f).Perm ((l'.erase a).map f) := by
      have hcons : (f a :: l.map f).Perm (f a :: (l'.erase a).map f) := h.trans (herase.map f)
      exact hcons.cons_inv
    have htail := ih (fun c hc d hd => hinj c (List.mem_cons_of_mem a hc) d
      (List.mem_of_mem_erase hd)) hrest
    exact (htail.cons a).trans herase.symm

/-! ### Pieces that mark their own end -/

/-- What is written of a value that satisfies `P` can be read back off the front of
any longer list. -/
def SelfDelimiting (P : α → Prop) (encode : α → List β) : Prop :=
  ∀ a b rest rest', P a → P b → encode a ++ rest = encode b ++ rest' → a = b ∧ rest = rest'

/-- Pieces of one width mark their own end. -/
theorem selfDelimiting_of_length {encode : α → List β} {P : α → Prop} {n : ℕ}
    (hlen : ∀ a, (encode a).length = n)
    (hinj : ∀ a b, P a → P b → encode a = encode b → a = b) : SelfDelimiting P encode := by
  intro a b rest rest' ha hb h
  obtain ⟨hab, hrest⟩ := List.append_inj h (by rw [hlen, hlen])
  exact ⟨hinj a b ha hb hab, hrest⟩

/-- Pieces closed by a mark that is not in them. -/
theorem selfDelimiting_of_mark {encode : α → List β} {P : α → Prop} {mark : β}
    (hmark : ∀ a, P a → mark ∉ encode a)
    (hinj : ∀ a b, P a → P b → encode a = encode b → a = b) :
    SelfDelimiting P fun a => encode a ++ [mark] := by
  intro a b rest rest' ha hb h
  simp only [List.append_assoc, List.singleton_append] at h
  -- Where one piece ends before the other, the other holds the mark.
  rcases List.append_eq_append_iff.mp h with ⟨c, hc, hrest⟩ | ⟨c, hc, hrest⟩
  · cases c with
    | nil =>
      rw [List.append_nil] at hc
      exact ⟨hinj a b ha hb hc.symm, (List.cons.inj hrest).2⟩
    | cons d c =>
      have hheld : mark ∈ encode b := by
        rw [hc, (List.cons.inj hrest).1]
        exact List.mem_append_right _ List.mem_cons_self
      exact absurd hheld (hmark b hb)
  · cases c with
    | nil =>
      rw [List.append_nil] at hc
      exact ⟨hinj a b ha hb hc, (List.cons.inj hrest).2.symm⟩
    | cons d c =>
      have hheld : mark ∈ encode a := by
        rw [hc, (List.cons.inj hrest).1]
        exact List.mem_append_right _ List.mem_cons_self
      exact absurd hheld (hmark a ha)

/-- One piece after another, as many on both sides. -/
theorem SelfDelimiting.flatMap {P : α → Prop} {encode : α → List β} (h : SelfDelimiting P encode)
    {l l' : List α} {rest rest' : List β} (hP : ∀ a ∈ l, P a) (hP' : ∀ a ∈ l', P a)
    (hlen : l.length = l'.length) (heq : l.flatMap encode ++ rest = l'.flatMap encode ++ rest') :
    l = l' ∧ rest = rest' := by
  induction l generalizing l' with
  | nil =>
    cases l' with
    | nil => exact ⟨rfl, heq⟩
    | cons b l' => cases hlen
  | cons a l ih =>
    cases l' with
    | nil => cases hlen
    | cons b l' =>
      simp only [List.flatMap_cons, List.append_assoc] at heq
      obtain ⟨hab, htail⟩ := h a b _ _ (hP a List.mem_cons_self) (hP' b List.mem_cons_self) heq
      obtain ⟨hl, hrest⟩ := ih (fun c hc => hP c (List.mem_cons_of_mem a hc))
        (fun c hc => hP' c (List.mem_cons_of_mem b hc)) (Nat.succ.inj hlen) htail
      rw [hab, hl]
      exact ⟨rfl, hrest⟩

/-- The same when nothing comes after them. -/
theorem SelfDelimiting.flatMap_inj {P : α → Prop} {encode : α → List β}
    (h : SelfDelimiting P encode) {l l' : List α} (hP : ∀ a ∈ l, P a) (hP' : ∀ a ∈ l', P a)
    (hlen : l.length = l'.length) (heq : l.flatMap encode = l'.flatMap encode) : l = l' := by
  have hnil : l.flatMap encode ++ [] = l'.flatMap encode ++ [] := by rw [heq]
  exact (h.flatMap hP hP' hlen hnil).1

/-- Pieces that are never empty fill a message to its end, so their number need not be
written. -/
theorem SelfDelimiting.flatMap_inj_of_ne_nil {P : α → Prop} {encode : α → List β}
    (h : SelfDelimiting P encode) (hne : ∀ a, encode a ≠ []) {l l' : List α} (hP : ∀ a ∈ l, P a)
    (hP' : ∀ a ∈ l', P a) (heq : l.flatMap encode = l'.flatMap encode) : l = l' := by
  induction l generalizing l' with
  | nil =>
    cases l' with
    | nil => rfl
    | cons b l' =>
      rw [List.flatMap_nil, List.flatMap_cons] at heq
      exact absurd (List.append_eq_nil_iff.mp heq.symm).1 (hne b)
  | cons a l ih =>
    cases l' with
    | nil =>
      rw [List.flatMap_nil, List.flatMap_cons] at heq
      exact absurd (List.append_eq_nil_iff.mp heq).1 (hne a)
    | cons b l' =>
      rw [List.flatMap_cons, List.flatMap_cons] at heq
      obtain ⟨hab, htail⟩ := h a b _ _ (hP a List.mem_cons_self) (hP' b List.mem_cons_self) heq
      rw [hab, ih (fun c hc => hP c (List.mem_cons_of_mem a hc))
        (fun c hc => hP' c (List.mem_cons_of_mem b hc)) htail]

/-- Pieces of one positive width fill a message to its end, so their number need
not be written. -/
theorem flatMap_inj_of_length {encode : α → List β} {n : ℕ} (hn : 0 < n)
    (hlen : ∀ a, (encode a).length = n) (hinj : Function.Injective encode) {l l' : List α}
    (h : l.flatMap encode = l'.flatMap encode) : l = l' := by
  have hself : SelfDelimiting (fun _ => True) encode :=
    selfDelimiting_of_length hlen fun a b _ _ hab => hinj hab
  have hcount : ∀ k : List α, (k.flatMap encode).length = k.length * n := by
    intro k
    induction k with
    | nil => simp
    | cons a k ih =>
      rw [List.flatMap_cons, List.length_append, hlen, ih, List.length_cons, Nat.succ_mul]
      omega
  have hlength : l.length * n = l'.length * n := by rw [← hcount, ← hcount, h]
  have hsame := Nat.eq_of_mul_eq_mul_right hn hlength
  exact hself.flatMap_inj (fun _ _ => trivial) (fun _ _ => trivial) hsame h

end Kerosene.Lib.Commit

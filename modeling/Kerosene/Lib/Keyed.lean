import Mathlib

/-! Lists read and written by key: a growable array whose elements carry their
own key, searched from the front.

`find` is the first element with a key; `put` overwrites the first element with
the new element's key and appends when there is none. `find_put` says what a
later search sees, `put_eq_self` when writing changed nothing. Only the section on
distinct keys asks for them: there a list is determined up to its order by what
searches find (`perm_of_find`). `renew` drops what has the new element's key and appends
it. -/
namespace Kerosene.Lib.Keyed

variable {α κ : Type} [DecidableEq κ] (key : α → κ)

def find (k : κ) (l : List α) : Option α := l.find? fun a => decide (key a = k)

def put (x : α) : List α → List α
  | [] => [x]
  | a :: l => if key a = key x then x :: l else a :: put x l

variable {key}

theorem key_of_find {k : κ} {l : List α} {a : α} (h : find key k l = some a) : key a = k := by
  simpa using List.find?_some h

theorem mem_of_find {k : κ} {l : List α} {a : α} (h : find key k l = some a) : a ∈ l :=
  List.mem_of_find?_eq_some h

theorem find_cons (k : κ) (a : α) (l : List α) :
    find key k (a :: l) = if key a = k then some a else find key k l := by
  unfold find
  rw [List.find?_cons]
  by_cases h : key a = k <;> simp [h]

theorem find_eq_none {k : κ} {l : List α} : find key k l = none ↔ ∀ a ∈ l, key a ≠ k := by
  simp [find]

/-- A search sees a written element under its key and is otherwise unaffected. -/
theorem find_put (k : κ) (x : α) (l : List α) :
    find key k (put key x l) = if key x = k then some x else find key k l := by
  induction l with
  | nil =>
    rw [put, find_cons]
  | cons a l ih =>
    rw [put]
    by_cases ha : key a = key x
    · rw [if_pos ha, find_cons, find_cons]
      by_cases hk : key x = k
      · rw [if_pos hk, if_pos hk]
      · rw [if_neg hk, if_neg hk, if_neg (fun h => hk (ha.symm.trans h))]
    · rw [if_neg ha, find_cons, find_cons, ih]
      by_cases hk : key x = k
      · rw [if_neg (fun h => ha (h.trans hk.symm)), if_pos hk, if_pos hk]
      · rw [if_neg hk, if_neg hk]

theorem find_put_self (x : α) (l : List α) : find key (key x) (put key x l) = some x := by
  rw [find_put, if_pos rfl]

theorem find_append (k : κ) (l l' : List α) :
    find key k (l ++ l') = (find key k l).or (find key k l') :=
  List.find?_append

/-- A rewrite of the elements that leaves their keys goes through a search. -/
theorem find_map_of_key {f : α → α} (hf : ∀ a, key (f a) = key a) (k : κ) (l : List α) :
    find key k (l.map f) = (find key k l).map f := by
  induction l with
  | nil => rfl
  | cons a l ih =>
    rw [List.map_cons, find_cons, find_cons, hf, ih]
    split <;> rfl

/-- Writing an element back over the one it was read from changes nothing exactly
when it is still the same element. -/
theorem put_eq_self {x a : α} {l : List α} (h : find key (key x) l = some a) :
    put key x l = l ↔ x = a := by
  constructor
  · intro hput
    have hfind : find key (key x) (put key x l) = some x := find_put_self x l
    rw [hput, h] at hfind
    exact (Option.some.inj hfind).symm
  · intro h
    subst h
    induction l with
    | nil => cases h
    | cons b l ih =>
      rw [find_cons] at h
      rw [put]
      by_cases hb : key b = key x
      · rw [if_pos hb] at h ⊢
        rw [Option.some.inj h]
      · rw [if_neg hb] at h ⊢
        rw [ih h]

/-- Writing an element under a new key is never without effect. -/
theorem put_ne_self {x : α} {l : List α} (h : find key (key x) l = none) : put key x l ≠ l := by
  intro hput
  have hfind : find key (key x) (put key x l) = some x := find_put_self x l
  rw [hput, h] at hfind
  cases hfind

/-- Appending a fresh element and then writing over it is a single write. -/
theorem put_append_fresh {x y : α} {l : List α} (h : find key (key x) l = none)
    (hy : key y = key x) : put key x (l ++ [y]) = put key x l := by
  induction l with
  | nil => simp [put, hy]
  | cons a l ih =>
    rw [find_cons] at h
    by_cases ha : key a = key x
    · rw [if_pos ha] at h
      cases h
    · rw [if_neg ha] at h
      simp only [List.cons_append, put, if_neg ha, ih h]

/-- A list after a write holds the written element and otherwise what it held. -/
theorem mem_put {x a : α} {l : List α} (h : a ∈ put key x l) : a = x ∨ a ∈ l := by
  induction l with
  | nil => exact .inl (List.mem_singleton.mp h)
  | cons b l ih =>
    rw [put] at h
    by_cases hb : key b = key x
    · rw [if_pos hb] at h
      exact (List.mem_cons.mp h).imp_right (List.mem_cons_of_mem b)
    · rw [if_neg hb] at h
      rcases List.mem_cons.mp h with rfl | h
      · exact .inr List.mem_cons_self
      · exact (ih h).imp_right (List.mem_cons_of_mem b)

/-- A write leaves the elements under other keys. -/
theorem mem_put_of_ne {x a : α} {l : List α} (ha : a ∈ l) (hne : key a ≠ key x) :
    a ∈ put key x l := by
  induction l with
  | nil => cases ha
  | cons b l ih =>
    rw [put]
    by_cases hb : key b = key x
    · rw [if_pos hb]
      rcases List.mem_cons.mp ha with rfl | ha
      · exact absurd hb hne
      · exact List.mem_cons_of_mem x ha
    · rw [if_neg hb]
      rcases List.mem_cons.mp ha with rfl | ha
      · exact List.mem_cons_self
      · exact List.mem_cons_of_mem b (ih ha)

/-- Writing under a fresh key appends. -/
theorem put_of_find_eq_none {x : α} {l : List α} (h : find key (key x) l = none) :
    put key x l = l ++ [x] := by
  induction l with
  | nil => rfl
  | cons a l ih =>
    rw [find_cons] at h
    by_cases ha : key a = key x
    · rw [if_pos ha] at h
      cases h
    · rw [if_neg ha] at h
      rw [put, if_neg ha, ih h, List.cons_append]

/-- Writing over an element leaves the keys as they are. -/
theorem map_key_put {x a : α} {l : List α} (h : find key (key x) l = some a) :
    (put key x l).map key = l.map key := by
  induction l with
  | nil => cases h
  | cons b l ih =>
    rw [find_cons] at h
    by_cases hb : key b = key x
    · rw [put, if_pos hb, List.map_cons, List.map_cons, hb]
    · rw [if_neg hb] at h
      rw [put, if_neg hb, List.map_cons, List.map_cons, ih h]

/-! ### Distinct keys -/

/-- Appending under a fresh key keeps the keys distinct. -/
theorem nodup_append_fresh {x : α} {l : List α} (hl : (l.map key).Nodup)
    (h : find key (key x) l = none) : ((l ++ [x]).map key).Nodup := by
  rw [List.map_append, List.map_singleton]
  refine List.nodup_append'.mpr ⟨hl, List.nodup_singleton _, ?_⟩
  rw [List.disjoint_singleton]
  intro hx
  obtain ⟨a, ha, hkey⟩ := List.mem_map.mp hx
  exact find_eq_none.mp h a ha hkey

theorem nodup_put {l : List α} (hl : (l.map key).Nodup) (x : α) :
    ((put key x l).map key).Nodup := by
  cases h : find key (key x) l with
  | none =>
    rw [put_of_find_eq_none h]
    exact nodup_append_fresh hl h
  | some a =>
    rw [map_key_put h]
    exact hl

/-- With distinct keys every element is found under its own. -/
theorem find_of_mem {l : List α} (hl : (l.map key).Nodup) {a : α} (ha : a ∈ l) :
    find key (key a) l = some a := by
  cases h : find key (key a) l with
  | none => exact absurd rfl (find_eq_none.mp h a ha)
  | some b => rw [List.inj_on_of_nodup_map hl (mem_of_find h) ha (key_of_find h)]

/-- Lists with distinct keys that answer every search alike differ in their order only. -/
theorem perm_of_find {l l' : List α} (hl : (l.map key).Nodup) (hl' : (l'.map key).Nodup)
    (h : ∀ k, find key k l = find key k l') : l.Perm l' := by
  refine (List.perm_ext_iff_of_nodup hl.of_map hl'.of_map).mpr fun a => ?_
  constructor
  · intro ha
    exact mem_of_find ((h _).symm.trans (find_of_mem hl ha))
  · intro ha
    exact mem_of_find ((h _).trans (find_of_mem hl' ha))

/-- A write moves a total by the written element against the one it replaces. -/
theorem sum_put (f : α → ℕ) (x : α) (l : List α) :
    ((put key x l).map f).sum + ((find key (key x) l).map f).getD 0 = (l.map f).sum + f x := by
  induction l with
  | nil => simp [put, find]
  | cons a l ih =>
    rw [put, find_cons]
    by_cases ha : key a = key x
    · simp only [if_pos ha, List.map_cons, List.sum_cons, Option.map_some, Option.getD_some]
      omega
    · simp only [if_neg ha, List.map_cons, List.sum_cons]
      omega

/-! ### Renewal -/

variable (key) in
/-- An element at the end of a list, in the place of any that have its key. -/
def renew (l : List α) (x : α) : List α := l.filter (fun a => key a != key x) ++ [x]

theorem mem_renew {l : List α} {x a : α} :
    a ∈ renew key l x ↔ (a ∈ l ∧ key a ≠ key x) ∨ a = x := by
  simp only [renew, List.mem_append, List.mem_filter, bne_iff_ne, List.mem_singleton]

theorem nodup_renew {l : List α} (h : (l.map key).Nodup) (x : α) :
    ((renew key l x).map key).Nodup := by
  refine nodup_append_fresh (h.sublist (List.filter_sublist.map _)) (find_eq_none.mpr ?_)
  intro a ha
  exact bne_iff_ne.mp (List.mem_filter.mp ha).2

theorem nodup_renewAll {l : List α} (h : (l.map key).Nodup) (new : List α) :
    ((new.foldl (renew key) l).map key).Nodup := by
  induction new generalizing l with
  | nil => exact h
  | cons x rest ih => exact ih (nodup_renew h x)

/-- Where every key has one element, renewing loses none. -/
theorem mem_renewAll {S : Set α} (hS : Set.InjOn key S) {l new : List α} {a : α}
    (hl : ∀ b ∈ l, b ∈ S) (hnew : ∀ b ∈ new, b ∈ S) :
    a ∈ new.foldl (renew key) l ↔ a ∈ l ∨ a ∈ new := by
  induction new generalizing l with
  | nil => rw [List.foldl_nil, or_iff_left List.not_mem_nil]
  | cons x rest ih =>
    obtain ⟨hx, hrest⟩ := List.forall_mem_cons.mp hnew
    have hl' : ∀ b ∈ renew key l x, b ∈ S := by
      intro b hb
      rcases mem_renew.mp hb with ⟨hmem, _⟩ | rfl
      · exact hl b hmem
      · exact hx
    have hkeeps : a ∈ renew key l x ↔ a ∈ l ∨ a = x := by
      rw [mem_renew]
      refine ⟨Or.imp_left And.left, fun h => ?_⟩
      by_cases hsame : key a = key x
      · rcases h with hmem | rfl
        · exact .inr (hS (hl a hmem) hx hsame)
        · exact .inr rfl
      · exact h.imp_left fun hmem => ⟨hmem, hsame⟩
    rw [List.foldl_cons, ih hl' hrest, hkeeps, List.mem_cons, or_assoc]

/-! ### One element for each of a list of keys -/

section Keys
variable {f : κ → α} (hf : ∀ k, key (f k) = k)
include hf

theorem find_map {keys : List κ} {k : κ} (h : k ∈ keys) : find key k (keys.map f) = some (f k) := by
  induction keys with
  | nil => cases h
  | cons k' keys ih =>
    rw [List.map_cons, find_cons, hf]
    by_cases hk : k' = k
    · rw [if_pos hk, hk]
    · rw [if_neg hk]
      exact ih ((List.mem_cons.mp h).resolve_left fun h' => hk h'.symm)

/-- Writing an element changes the function at its key. -/
theorem put_map {keys : List κ} (hnodup : keys.Nodup) {x : α} (h : key x ∈ keys) :
    put key x (keys.map f) = keys.map (Function.update f (key x) x) := by
  induction keys with
  | nil => cases h
  | cons k keys ih =>
    obtain ⟨hk, hnodup⟩ := List.nodup_cons.mp hnodup
    rw [List.map_cons, List.map_cons, put, hf]
    by_cases hx : k = key x
    · rw [if_pos hx, ← hx, Function.update_self]
      congr 1
      refine List.map_congr_left fun k' hk' => ?_
      rw [Function.update_of_ne]
      exact fun h' => hk (h' ▸ hk')
    · rw [if_neg hx, Function.update_of_ne hx,
        ih hnodup ((List.mem_cons.mp h).resolve_left fun h' => hx h'.symm)]

end Keys

/-! ### Lists in order -/

/-- In a list in order, an element comes before itself and all that follow it. -/
theorem length_sub_le_length_filter {r : α → α → Prop} [DecidableRel r] (hrefl : ∀ a, r a a)
    {l : List α} {i : ℕ} {a : α} (hsorted : l.Pairwise r) (ha : l[i]? = some a) :
    l.length - i ≤ (l.filter (r a)).length := by
  obtain ⟨hi, rfl⟩ := List.getElem?_eq_some_iff.mp ha
  have hdrop := hsorted.drop (i := i)
  rw [List.drop_eq_getElem_cons hi, List.pairwise_cons] at hdrop
  have hall : (l.drop i).filter (r l[i]) = l.drop i := by
    rw [List.filter_eq_self, List.drop_eq_getElem_cons hi]
    intro b hb
    rcases List.mem_cons.mp hb with rfl | hb
    · exact decide_eq_true (hrefl _)
    · exact decide_eq_true (hdrop.1 b hb)
  rw [← List.length_drop, ← hall]
  exact ((List.drop_sublist i l).filter _).length_le

end Kerosene.Lib.Keyed

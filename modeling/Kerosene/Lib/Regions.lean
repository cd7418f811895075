import Kerosene.Lib.Encode
import Kerosene.Lib.Tables

/-! Several maps in one ordered map of byte strings, told apart by prefixes of the keys.

`Holds` says that the keys with a prefix hold a map from names to records, and
nothing else. Writes under one prefix keep it up (`Holds.insert`, `Holds.erase`),
writes under another do not disturb it (`Holds.of_confined`), and a scan of the
prefix finds the records of the map in some order (`Holds.scan_perm`). -/
namespace Kerosene.Lib.Regions

open Encode Tables

variable {ι ν ρ : Type}

/-! ### Enumerations -/

/-- A list has every entry of a map once. -/
structure Enumerates (l : List (ι × ρ)) (f : ι → Option ρ) : Prop where
  nodup : (l.map Prod.fst).Nodup
  mem : ∀ i r, (i, r) ∈ l ↔ f i = some r

theorem Enumerates.perm {l l' : List (ι × ρ)} {f : ι → Option ρ} (h : Enumerates l f)
    (h' : Enumerates l' f) : l.Perm l' := by
  refine (List.perm_ext_iff_of_nodup h.nodup.of_map h'.nodup.of_map).mpr fun e => ?_
  exact (h.mem e.1 e.2).trans (h'.mem e.1 e.2).symm

/-! ### Scans -/

section Sorted
variable {κ : Type} [DecidableEq κ] (le : κ → κ → Prop) [DecidableRel le] [IsTrans κ le]
  [Std.Antisymm le] [Std.Total le]

/-- The entries of a map in the order of their keys. -/
def sortedEntries (t : Table κ ν) : List (κ × ν) :=
  (t.keys.sort le).filterMap fun k => (t.lookup k).map (k, ·)

theorem enumerates_sortedEntries (t : Table κ ν) :
    Enumerates (sortedEntries le t) fun k => t.lookup k := by
  unfold sortedEntries
  constructor
  · have hself {k b : κ} (h : b ∈ ((t.lookup k).map fun v => (k, v)).map Prod.fst) : b = k := by
      cases hv : t.lookup k <;> simp [hv] at h
      exact h.symm
    rw [List.map_filterMap]
    refine List.Nodup.filterMap (fun k k' b hb hb' => ?_) (Finset.sort_nodup _ _)
    exact (hself hb).symm.trans (hself hb')
  · intro k v
    rw [List.mem_filterMap]
    constructor
    · intro h
      obtain ⟨k', _, h⟩ := h
      obtain ⟨v', hv', heq⟩ := Option.map_eq_some_iff.mp h
      cases heq
      exact hv'
    · intro h
      refine ⟨k, ?_, by rw [h]; rfl⟩
      rw [Finset.mem_sort, Finmap.mem_keys]
      exact Finmap.mem_of_lookup_eq_some h

end Sorted

instance : IsTrans Bytes bytesLe := ⟨fun _ _ _ h h' => List.le_trans h h'⟩

instance : Std.Antisymm bytesLe := ⟨fun _ _ h h' => List.le_antisymm h h'⟩

instance : Std.Total bytesLe := ⟨fun a b => List.le_total a b⟩

/-- The entries whose keys have a prefix, in the order of their keys. -/
def scanPrefix (p : Bytes) (db : Table Bytes ν) : List (Bytes × ν) :=
  (sortedEntries bytesLe db).filter fun e => p <+: e.1

theorem mem_scanPrefix {p k : Bytes} {db : Table Bytes ν} {v : ν} :
    (k, v) ∈ scanPrefix p db ↔ p <+: k ∧ db.lookup k = some v := by
  unfold scanPrefix
  rw [List.mem_filter, (enumerates_sortedEntries bytesLe db).mem, decide_eq_true_iff, and_comm]

theorem nodup_scanPrefix (p : Bytes) (db : Table Bytes ν) :
    ((scanPrefix p db).map Prod.fst).Nodup :=
  (enumerates_sortedEntries bytesLe db).nodup.sublist (List.filter_sublist.map _)

/-! ### Writes in any order -/

theorem insertAll_perm {κ : Type} [DecidableEq κ] {writes writes' : List (κ × ν)}
    (h : writes.Perm writes') (hkeys : (writes.map Prod.fst).Nodup) (t : Table κ ν) :
    insertAll t writes = insertAll t writes' := by
  refine h.foldl_eq' (fun a ha b hb s => ?_) t
  by_cases hab : a.1 = b.1
  · rw [List.inj_on_of_nodup_map hkeys ha hb hab]
  · exact Finmap.insert_insert_of_ne s hab

/-! ### Regions -/

theorem append_utf8_injective (p : Bytes) : Function.Injective fun id => p ++ utf8 id :=
  fun _ _ h => utf8_inj.mp (List.append_cancel_left h)

/-- Under a prefix there is a map from names to records, and nothing else. -/
def Holds (p : Bytes) (enc : ρ → ν) (f : String → Option ρ) (db : Table Bytes ν) : Prop :=
  ∀ rest v, db.lookup (p ++ rest) = some v ↔ ∃ id r, rest = utf8 id ∧ f id = some r ∧ enc r = v

/-- A change that stays under a prefix. -/
def Confined (p : Bytes) (db db' : Table Bytes ν) : Prop :=
  ∀ k, ¬ p <+: k → db'.lookup k = db.lookup k

theorem Confined.refl (p : Bytes) (db : Table Bytes ν) : Confined p db db := fun _ _ => rfl

theorem Confined.trans {p : Bytes} {db db' db'' : Table Bytes ν} (h : Confined p db db')
    (h' : Confined p db' db'') : Confined p db db'' :=
  fun k hk => (h' k hk).trans (h k hk)

theorem confined_insert (p rest : Bytes) (v : ν) (db : Table Bytes ν) :
    Confined p db (db.insert (p ++ rest) v) := by
  intro k hk
  refine Finmap.lookup_insert_of_ne db fun h => ?_
  rw [h] at hk
  exact hk (List.prefix_append p rest)

theorem confined_erase (p rest : Bytes) (db : Table Bytes ν) :
    Confined p db (db.erase (p ++ rest)) := by
  intro k hk
  refine Finmap.lookup_erase_ne fun h => ?_
  rw [h] at hk
  exact hk (List.prefix_append p rest)

theorem lookup_insert_eq_update {κ : Type} [DecidableEq κ] (map : Table κ ρ) (k : κ) (r : ρ) :
    (fun i => (map.insert k r).lookup i) = Function.update (fun i => map.lookup i) k (some r) := by
  funext i
  by_cases hi : i = k
  · rw [hi, Finmap.lookup_insert, Function.update_self]
  · rw [Finmap.lookup_insert_of_ne map hi, Function.update_of_ne hi]

theorem lookup_erase_eq_update {κ : Type} [DecidableEq κ] (map : Table κ ρ) (k : κ) :
    (fun i => (map.erase k).lookup i) = Function.update (fun i => map.lookup i) k none := by
  funext i
  by_cases hi : i = k
  · rw [hi, Finmap.lookup_erase, Function.update_self]
  · rw [Finmap.lookup_erase_ne hi, Function.update_of_ne hi]

namespace Holds

variable {p : Bytes} {enc : ρ → ν} {f : String → Option ρ} {db : Table Bytes ν}

theorem empty (p : Bytes) (enc : ρ → ν) : Holds p enc (fun _ => none) ∅ := by
  intro rest v
  simp

theorem lookup (h : Holds p enc f db) (id : String) :
    db.lookup (p ++ utf8 id) = (f id).map enc := by
  cases hf : f id with
  | some r => exact (h (utf8 id) (enc r)).mpr ⟨id, r, rfl, hf, rfl⟩
  | none =>
    rw [Option.map_none, Option.eq_none_iff_forall_ne_some]
    intro v hv
    obtain ⟨id', r, hid, hr, _⟩ := (h (utf8 id) v).mp hv
    rw [utf8_inj.mp hid, hr] at hf
    cases hf

theorem insert (h : Holds p enc f db) (id : String) (r : ρ) :
    Holds p enc (Function.update f id (some r)) (db.insert (p ++ utf8 id) (enc r)) := by
  intro rest v
  by_cases hrest : rest = utf8 id
  · subst hrest
    rw [Finmap.lookup_insert, Option.some_inj]
    constructor
    · intro hv
      exact ⟨id, r, rfl, Function.update_self .., hv⟩
    · intro hv
      obtain ⟨id', r', hid, hr, hv⟩ := hv
      rw [← utf8_inj.mp hid, Function.update_self, Option.some_inj] at hr
      rw [hr]
      exact hv
  · have hne : p ++ rest ≠ p ++ utf8 id := fun heq => hrest (List.append_cancel_left heq)
    rw [Finmap.lookup_insert_of_ne db hne, h rest v]
    refine exists_congr fun id' => exists_congr fun r' => and_congr_right fun hid => ?_
    rw [Function.update_of_ne fun heq => hrest (by rw [hid, heq])]

theorem erase (h : Holds p enc f db) (id : String) :
    Holds p enc (Function.update f id none) (db.erase (p ++ utf8 id)) := by
  intro rest v
  by_cases hrest : rest = utf8 id
  · subst hrest
    rw [Finmap.lookup_erase]
    refine iff_of_false (by simp) fun hv => ?_
    obtain ⟨id', r', hid, hr, _⟩ := hv
    rw [← utf8_inj.mp hid, Function.update_self] at hr
    cases hr
  · have hne : p ++ rest ≠ p ++ utf8 id := fun heq => hrest (List.append_cancel_left heq)
    rw [Finmap.lookup_erase_ne hne, h rest v]
    refine exists_congr fun id' => exists_congr fun r' => and_congr_right fun hid => ?_
    rw [Function.update_of_ne fun heq => hrest (by rw [hid, heq])]

theorem insertAll {map : Table String ρ} (h : Holds p enc (fun id => map.lookup id) db)
    (writes : List (String × ρ)) :
    Holds p enc (fun id => (Tables.insertAll map writes).lookup id)
      (Tables.insertAll db (writes.map fun w => (p ++ utf8 w.1, enc w.2))) := by
  induction writes generalizing map db with
  | nil => exact h
  | cons w rest ih =>
    refine ih ?_
    rw [lookup_insert_eq_update]
    exact h.insert w.1 w.2

/-- What happens under a prefix that is neither longer nor shorter. -/
theorem of_confined {q : Bytes} {db' : Table Bytes ν} (hpq : ¬ p <+: q) (hqp : ¬ q <+: p)
    (hconfined : Confined q db db') (h : Holds p enc f db) : Holds p enc f db' := by
  intro rest v
  rw [hconfined (p ++ rest) fun hq => ?_]
  · exact h rest v
  · exact (List.prefix_or_prefix_of_prefix (List.prefix_append p rest) hq).elim hpq hqp

/-- A scan finds the records of the map. -/
theorem scan_perm (h : Holds p enc f db) {l : List (String × ρ)} (hl : Enumerates l f) :
    (scanPrefix p db).Perm (l.map fun e => (p ++ utf8 e.1, enc e.2)) := by
  have hscan : Enumerates (scanPrefix p db) fun k => if p <+: k then db.lookup k else none := by
    refine ⟨nodup_scanPrefix p db, fun k v => ?_⟩
    rw [mem_scanPrefix]
    by_cases hk : p <+: k <;> simp [hk]
  refine hscan.perm ⟨?_, fun k v => ?_⟩
  · rw [List.map_map]
    have hkeys : l.map (Prod.fst ∘ fun e => (p ++ utf8 e.1, enc e.2)) =
        (l.map Prod.fst).map fun id => p ++ utf8 id := by
      rw [List.map_map]
      rfl
    rw [hkeys]
    exact hl.nodup.map (append_utf8_injective p)
  · rw [List.mem_map]
    constructor
    · intro hk
      obtain ⟨e, he, heq⟩ := hk
      cases heq
      rw [if_pos (List.prefix_append p _), h.lookup, (hl.mem e.1 e.2).mp he]
      rfl
    · intro hk
      by_cases hunder : p <+: k
      · rw [if_pos hunder] at hk
        obtain ⟨rest, rfl⟩ := hunder
        obtain ⟨id, r, rfl, hr, rfl⟩ := (h rest v).mp hk
        exact ⟨(id, r), (hl.mem id r).mpr hr, rfl⟩
      · rw [if_neg hunder] at hk
        cases hk

end Holds

end Kerosene.Lib.Regions

import Kerosene.Ledger.Persistent
import Kerosene.Lib.Records

/-! What the operations on records write, in memory and in the database.

Both kinds of store are seen through the records a client would get. A record that is
created was not there before, a record that is updated was, and a call that fails
writes nothing. -/
namespace Kerosene.Ledger

open Lib.Encode Lib.Inplace Lib.Records Lib.Regions Lib.Tables

variable {ρ : Type}

/-- Written by a creation. -/
def Creates (id : String) (r : ρ) (i : String) (old : Option ρ) (new : ρ) : Prop :=
  i = id ∧ old = none ∧ new = r

/-- Written by an update. -/
def Updates (id : String) (f : ρ → Except LedgerError ρ) (i : String) (old : Option ρ) (new : ρ) :
    Prop :=
  i = id ∧ ∃ r, old = some r ∧ f r = .ok new

/-! ### In memory -/

namespace HashMap

def stored (map : Table String ρ) (id : String) : Option ρ := map.lookup id

theorem stored_insert (map : Table String ρ) (id : String) (r : ρ) (i : String) :
    stored (map.insert id r) i = if i = id then some r else stored map i := by
  unfold stored
  split
  case isTrue h => rw [h, Finmap.lookup_insert]
  case isFalse h => exact Finmap.lookup_insert_of_ne map h

/-- A client reads the stored record. -/
theorem read_iff_stored {id : String} {map : Table String ρ} {r : ρ} :
    outcome (read id) map = .ok (some r) ↔ stored map id = some r :=
  ⟨fun h => Except.ok.inj h, fun h => congrArg Except.ok h⟩

theorem writesOnly_create (id : String) (r : ρ) (duplicate : LedgerError) :
    WritesOnly stored (Creates id r) (create id r duplicate) := by
  intro map i
  cases hold : map.lookup id with
  | some old =>
    have hcall : create id r duplicate map = .error duplicate map := by
      simp [create, bind_def, hold]
    rw [after_error hcall]
    exact .inl rfl
  | none =>
    have hcall : create id r duplicate map = .ok () (map.insert id r) := by
      simp [create, bind_def, hold]
    rw [after_ok hcall, stored_insert]
    by_cases hi : i = id
    · refine .inr ⟨⟨(), outcome_ok hcall⟩, r, if_pos hi, hi, ?_, rfl⟩
      rw [hi]
      exact hold
    · exact .inl (if_neg hi)

theorem writesOnly_update (id : String) (missing : LedgerError) (f : ρ → Except LedgerError ρ) :
    WritesOnly stored (Updates id f) (update id missing f) := by
  intro map i
  cases hold : map.lookup id with
  | none =>
    have hcall : update id missing f map = .error missing map := by
      simp [update, bind_def, hold]
    rw [after_error hcall]
    exact .inl rfl
  | some r =>
    cases hf : f r with
    | error e =>
      have hcall : update id missing f map = .error e map := by
        simp [update, bind_def, hold, hf]
      rw [after_error hcall]
      exact .inl rfl
    | ok new =>
      have hcall : update id missing f map = .ok () (map.insert id new) := by
        simp [update, bind_def, hold, hf]
      rw [after_ok hcall, stored_insert]
      by_cases hi : i = id
      · refine .inr ⟨⟨(), outcome_ok hcall⟩, new, if_pos hi, hi, r, ?_, hf⟩
        rw [hi]
        exact hold
      · exact .inl (if_neg hi)

end HashMap

/-! ### In the database -/

namespace Sled

variable (json : Json ρ) (p : Bytes)

/-- The record under a name, if there is one that can be read. -/
def stored (db : Db) (id : String) : Option ρ :=
  (db.lookup (p ++ utf8 id)).bind fun bytes => (json.deserialize bytes).toOption

variable {json p}

theorem stored_insert (db : Db) (id : String) {r : ρ} {bytes : Bytes}
    (h : json.serialize r = .ok bytes) (i : String) :
    stored json p (db.insert (p ++ utf8 id) bytes) i =
      if i = id then some r else stored json p db i := by
  unfold stored
  split
  case isTrue hi =>
    rw [hi, Finmap.lookup_insert, Option.bind_some, json.deserialize_serialize h]
    rfl
  case isFalse hi =>
    rw [Finmap.lookup_insert_of_ne db fun hkey => hi (append_utf8_injective p hkey)]

/-- A client reads the stored record. -/
theorem read_iff_stored {id : String} {db : Db} {r : ρ} :
    outcome (read json (p ++ utf8 id)) db = .ok (some r) ↔ stored json p db id = some r := by
  unfold stored outcome
  cases hold : db.lookup (p ++ utf8 id) with
  | none =>
    have hread : read json (p ++ utf8 id) db = .ok none db := by
      simp only [read, bind_def, get_def, hold, pure_def]
    rw [hread]
    simp
  | some bytes =>
    cases hr : json.deserialize bytes with
    | error e =>
      have hread : read json (p ++ utf8 id) db = .error e db := by
        simp only [read, bind_def, get_def, hold, hr, check_error]
      rw [hread, Option.bind_some, hr]
      simp [Except.toOption]
    | ok r =>
      have hread : read json (p ++ utf8 id) db = .ok (some r) db := by
        simp only [read, bind_def, get_def, hold, hr, check_ok, pure_def]
      rw [hread, Option.bind_some, hr]
      simp [Except.toOption]

theorem writesOnly_create (id : String) (r : ρ) (duplicate : LedgerError) :
    WritesOnly (stored json p) (Creates id r) (create json (p ++ utf8 id) r duplicate) := by
  intro db i
  cases hold : db.lookup (p ++ utf8 id) with
  | some old =>
    have hcall : create json (p ++ utf8 id) r duplicate db = .error duplicate db := by
      simp [create, bind_def, hold]
    rw [after_error hcall]
    exact .inl rfl
  | none =>
    cases hr : json.serialize r with
    | error e =>
      have hcall : create json (p ++ utf8 id) r duplicate db = .error e db := by
        simp [create, bind_def, hold, hr]
      rw [after_error hcall]
      exact .inl rfl
    | ok bytes =>
      have hcall : create json (p ++ utf8 id) r duplicate db =
          .ok () (db.insert (p ++ utf8 id) bytes) := by
        simp [create, bind_def, hold, hr]
      rw [after_ok hcall, stored_insert db id hr]
      by_cases hi : i = id
      · refine .inr ⟨⟨(), outcome_ok hcall⟩, r, if_pos hi, hi, ?_, rfl⟩
        rw [hi, stored, hold]
        rfl
      · exact .inl (if_neg hi)

theorem writesOnly_update (id : String) (missing : LedgerError) (f : ρ → Except LedgerError ρ) :
    WritesOnly (stored json p) (Updates id f) (update json (p ++ utf8 id) missing f) := by
  intro db i
  cases hold : db.lookup (p ++ utf8 id) with
  | none =>
    have hcall : update json (p ++ utf8 id) missing f db = .error missing db := by
      simp [update, bind_def, hold]
    rw [after_error hcall]
    exact .inl rfl
  | some old =>
    cases hread : json.deserialize old with
    | error e =>
      have hcall : update json (p ++ utf8 id) missing f db = .error e db := by
        simp [update, bind_def, hold, hread]
      rw [after_error hcall]
      exact .inl rfl
    | ok r =>
      cases hf : f r with
      | error e =>
        have hcall : update json (p ++ utf8 id) missing f db = .error e db := by
          simp [update, bind_def, hold, hread, hf]
        rw [after_error hcall]
        exact .inl rfl
      | ok new =>
        cases hnew : json.serialize new with
        | error e =>
          have hcall : update json (p ++ utf8 id) missing f db = .error e db := by
            simp [update, bind_def, hold, hread, hf, hnew]
          rw [after_error hcall]
          exact .inl rfl
        | ok bytes =>
          have hcall : update json (p ++ utf8 id) missing f db =
              .ok () (db.insert (p ++ utf8 id) bytes) := by
            simp [update, bind_def, hold, hread, hf, hnew]
          rw [after_ok hcall, stored_insert db id hnew]
          by_cases hi : i = id
          · refine .inr ⟨⟨(), outcome_ok hcall⟩, new, if_pos hi, hi, r, ?_, hf⟩
            rw [hi, stored, hold, Option.bind_some, hread]
            rfl
          · exact .inl (if_neg hi)

theorem readOnly_read (key : Bytes) : ReadOnly (read json key) := by
  intro db
  unfold after read
  simp only [bind_def, get_def]
  cases db.lookup key with
  | none => rfl
  | some bytes =>
    simp only [bind_def]
    cases json.deserialize bytes <;> rfl

end Sled

end Kerosene.Ledger

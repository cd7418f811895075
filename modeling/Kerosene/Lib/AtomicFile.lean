import Kerosene.Lib.Encode
import Kerosene.Lib.Inplace
import Kerosene.Lib.Tables

/-! Files that are replaced as a whole, by programs that may end at any time.

A file is replaced by writing a temporary one beside it and renaming that. An operation may
fail, with part of its work done, and the program may end in the middle of it. In every case
the file holds what it held before or all of what was to be written (`replace_spec`), so a
file that is only ever replaced is never half written.

`Triple P m Q E` is a specification of a program for all of its ends: `Q` when it returns,
`E` when it does not, and the state is there in both cases. -/
namespace Kerosene.Lib.AtomicFile

open Lib.Encode Lib.Inplace Lib.Tables

/-! ### Specifications -/

section Triples
variable {ε σ α β : Type}

/-- From `P`, a program returns with `Q` or ends in an error with `E`. -/
def Triple (P : σ → Prop) (m : EStateM ε σ α) (Q : α → σ → Prop) (E : ε → σ → Prop) : Prop :=
  ∀ s, P s → match m s with
    | .ok a s' => Q a s'
    | .error e s' => E e s'

variable {P : σ → Prop} {Q : α → σ → Prop} {E : ε → σ → Prop}

theorem Triple.of_ok {m : EStateM ε σ α} (h : Triple P m Q E) {s s' : σ} {a : α} (hs : P s)
    (hm : m s = .ok a s') : Q a s' := by
  have hpost := h s hs
  rw [hm] at hpost
  exact hpost

theorem Triple.of_error {m : EStateM ε σ α} (h : Triple P m Q E) {s s' : σ} {e : ε} (hs : P s)
    (hm : m s = .error e s') : E e s' := by
  have hpost := h s hs
  rw [hm] at hpost
  exact hpost

theorem Triple.bind {m : EStateM ε σ α} {f : α → EStateM ε σ β} {R : β → σ → Prop}
    (hm : Triple P m Q E) (hf : ∀ a, Triple (Q a) (f a) R E) : Triple P (m >>= f) R E := by
  intro s hs
  have hfirst := hm s hs
  rw [bind_def]
  cases hstep : m s with
  | error e s' =>
    rw [hstep] at hfirst
    exact hfirst
  | ok a s' =>
    rw [hstep] at hfirst
    exact hf a s' hfirst

/-- When it is known what comes back. -/
theorem Triple.bind_eq {m : EStateM ε σ α} {f : α → EStateM ε σ β} {a : α} {Q : σ → Prop}
    {R : β → σ → Prop} (hm : Triple P m (fun b s => b = a ∧ Q s) E) (hf : Triple Q (f a) R E) :
    Triple P (m >>= f) R E := by
  refine hm.bind fun b s hs => ?_
  rw [hs.1]
  exact hf s hs.2

theorem Triple.mono {m : EStateM ε σ α} {P' : σ → Prop} {Q' : α → σ → Prop} {E' : ε → σ → Prop}
    (h : Triple P m Q E) (hP : ∀ s, P' s → P s) (hQ : ∀ a s, Q a s → Q' a s)
    (hE : ∀ e s, E e s → E' e s) : Triple P' m Q' E' := by
  intro s hs
  have hpost := h s (hP s hs)
  cases hm : m s with
  | error e s' =>
    rw [hm] at hpost
    exact hE e s' hpost
  | ok a s' =>
    rw [hm] at hpost
    exact hQ a s' hpost

theorem Triple.and {m : EStateM ε σ α} {P' : σ → Prop} {Q' : α → σ → Prop} {E' : ε → σ → Prop}
    (h : Triple P m Q E) (h' : Triple P' m Q' E') :
    Triple (fun s => P s ∧ P' s) m (fun a s => Q a s ∧ Q' a s) (fun e s => E e s ∧ E' e s) := by
  intro s hs
  have hpost := h s hs.1
  have hpost' := h' s hs.2
  cases hm : m s with
  | error e s' =>
    rw [hm] at hpost hpost'
    exact ⟨hpost, hpost'⟩
  | ok a s' =>
    rw [hm] at hpost hpost'
    exact ⟨hpost, hpost'⟩

theorem Triple.pure {a : α} (h : ∀ s, P s → Q a s) : Triple P (Pure.pure a : EStateM ε σ α) Q E := h

theorem Triple.get {Q : σ → σ → Prop} (h : ∀ s, P s → Q s s) :
    Triple P (get : EStateM ε σ σ) Q E := h

theorem Triple.forM {l : List α} {f : α → EStateM ε σ PUnit} (h : ∀ a, Triple P (f a) (fun _ => P) E) :
    Triple P (l.forM f) (fun _ => P) E := by
  induction l with
  | nil => exact Triple.pure fun _ hs => hs
  | cons a rest ih => exact Triple.bind (h a) fun _ => ih

/-- Facts about the state at the start may be fixed first. -/
theorem Triple.of_forall {m : EStateM ε σ α}
    (h : ∀ s₀, P s₀ → Triple (fun s => s = s₀) m Q E) : Triple P m Q E :=
  fun s hs => h s hs s rfl

end Triples

/-! ### Files -/

abbrev Files := Table String Bytes

/-- What becomes of one operation: all of it is done, or it fails, or the program ends in
the middle of it or right after it. `written` is how much of the temporary file is there. -/
inductive Attempt where
  | done
  | fails (written : Option ℕ) (message : String)
  | ends (written : Option ℕ)
  | endsAfter

/-- Why a program has not returned. -/
inductive Stop (ε : Type) where
  | ended
  | failed (error : ε)

def Stop.IsEnded {ε : Type} : Stop ε → Prop
  | .ended => True
  | .failed _ => False

/-- The files, and what becomes of the operations to come. -/
structure Disk where
  files : Files
  attempts : List Attempt

def temporary (path : String) : String := path ++ ".tmp"

theorem ne_temporary (path : String) : path ≠ temporary path := by
  intro h
  have hsize := congrArg String.length h
  have htmp : ".tmp".length = 4 := by decide
  rw [temporary, String.length_append] at hsize
  omega

/-- The temporary file as far as it is written. -/
def partWritten (path : String) (bytes : Bytes) (written : Option ℕ) (files : Files) : Files :=
  match written with
  | none => files
  | some n => files.insert (temporary path) (bytes.take n)

/-- The temporary file has taken the place of the file. -/
def renamed (path : String) (bytes : Bytes) (files : Files) : Files :=
  (files.insert path bytes).erase (temporary path)

def replace (path : String) (bytes : Bytes) : EStateM (Stop String) Disk Unit := fun d =>
  let rest := d.attempts.tail
  match d.attempts.headD .done with
  | .done => .ok () ⟨renamed path bytes d.files, rest⟩
  | .fails written message =>
    .error (.failed message) ⟨partWritten path bytes written d.files, rest⟩
  | .ends written => .error .ended ⟨partWritten path bytes written d.files, rest⟩
  | .endsAfter => .error .ended ⟨renamed path bytes d.files, rest⟩

def read (path : String) : EStateM (Stop String) Disk Bytes := fun d =>
  let d' := { d with attempts := d.attempts.tail }
  match d.attempts.headD .done with
  | .done =>
    match d.files.lookup path with
    | some bytes => .ok bytes d'
    | none => .error (.failed "No such file or directory (os error 2)") d'
  | .fails _ message => .error (.failed message) d'
  | .ends _ | .endsAfter => .error .ended d'

section Lookups
variable {path other : String} {bytes : Bytes} {files : Files}

theorem lookup_partWritten {written : Option ℕ} (h : other ≠ temporary path) :
    (partWritten path bytes written files).lookup other = files.lookup other := by
  cases written with
  | none => rfl
  | some n => exact Finmap.lookup_insert_of_ne _ h

theorem lookup_renamed_self : (renamed path bytes files).lookup path = some bytes := by
  rw [renamed, Finmap.lookup_erase_ne (ne_temporary path), Finmap.lookup_insert]

theorem lookup_renamed (hpath : other ≠ path) (h : other ≠ temporary path) :
    (renamed path bytes files).lookup other = files.lookup other := by
  rw [renamed, Finmap.lookup_erase_ne h, Finmap.lookup_insert_of_ne _ hpath]

end Lookups

/-- The files but for one and its temporary are the same. -/
def SameElsewhere (path : String) (files files' : Files) : Prop :=
  ∀ other, other ≠ path → other ≠ temporary path → files'.lookup other = files.lookup other

/-- **All or nothing.** Whatever becomes of it, replacing a file leaves what it held or puts
all of the new bytes in its place: the new bytes when it returns, what it held when it fails,
either when the program ends. No other file is touched. -/
theorem replace_spec (path : String) (bytes : Bytes) (files : Files) :
    Triple (fun d => d.files = files) (replace path bytes)
      (fun _ d => SameElsewhere path files d.files ∧ d.files.lookup path = some bytes)
      (fun e d => SameElsewhere path files d.files ∧
        (d.files.lookup path = files.lookup path ∨
          e.IsEnded ∧ d.files.lookup path = some bytes)) := by
  intro d hd
  subst hd
  have hpart (written : Option ℕ) :
      SameElsewhere path d.files (partWritten path bytes written d.files) :=
    fun other _ h => lookup_partWritten h
  have hnew : SameElsewhere path d.files (renamed path bytes d.files) :=
    fun other hpath h => lookup_renamed hpath h
  unfold replace
  cases d.attempts.headD .done with
  | done => exact ⟨hnew, lookup_renamed_self⟩
  | fails written message => exact ⟨hpart written, .inl (lookup_partWritten (ne_temporary path))⟩
  | ends written => exact ⟨hpart written, .inl (lookup_partWritten (ne_temporary path))⟩
  | endsAfter => exact ⟨hnew, .inr ⟨trivial, lookup_renamed_self⟩⟩

/-- Reading changes nothing. -/
theorem read_spec (path : String) (files : Files) :
    Triple (fun d => d.files = files) (read path)
      (fun bytes d => d.files = files ∧ files.lookup path = some bytes)
      (fun _ d => d.files = files) := by
  intro d hd
  subst hd
  unfold read
  cases d.attempts.headD .done with
  | done =>
    cases hlookup : d.files.lookup path with
    | none => rfl
    | some bytes => exact ⟨rfl, rfl⟩
  | fails written message => rfl
  | ends written => rfl
  | endsAfter => rfl

/-! ### Undisturbed operations -/

theorem replace_undisturbed (path : String) (bytes : Bytes) :
    Triple (fun d => d.attempts = []) (replace path bytes) (fun _ d => d.attempts = [])
      (fun _ _ => False) := by
  intro d hd
  simp [replace, hd]

theorem read_undisturbed (path : String) :
    Triple (fun d => d.attempts = [] ∧ d.files.lookup path ≠ none) (read path)
      (fun _ d => d.attempts = []) (fun _ _ => False) := by
  rintro d ⟨hd, hthere⟩
  obtain ⟨bytes, hbytes⟩ := Option.ne_none_iff_exists'.mp hthere
  simp [read, hd, hbytes]

end Kerosene.Lib.AtomicFile

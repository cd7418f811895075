import Kerosene.Lib.Interleave
import Kerosene.Lib.Text
import Kerosene.Node.Discovery

/-! The file of the identity key (`kerosene-identity-core`, `load_or_create`).

The node and the key generator call `load_or_create` on one path, at any time, and none waits
for another. A call opens the file and reads it or, when there is none, makes up a secret,
creates the file and writes the secret to it, piece by piece; between any two operations
others take theirs, any operation may fail, and a process may end before it. All the same,
whoever gets an identity gets the one of the file (`identity_agreed`). But the file is not
written as the others of a node are: when the call that has created it does not get to
write the whole secret, nobody ever gets an identity again (`torn_identity_stays`). -/
namespace Kerosene.Node

open Lib.Digest Lib.Encode Lib.Inplace Lib.Interleave Lib.Text

/-- The secret in the bytes of a file. -/
def decodeSecret (bytes : Bytes) : Except IdentityError (Vector UInt8 32) := do
  let encoded ← okOr (ofUtf8 bytes) (.io "stream did not contain valid UTF-8")
  let decoded ← okOr (fromHex (trim encoded)) .invalidSecret
  if h : decoded.length = 32 then return ⟨decoded.toArray, h⟩
  else throw .invalidSecret

theorem decodeSecret_ok {bytes : Bytes} {secret : Vector UInt8 32} :
    decodeSecret bytes = .ok secret ↔
      ∃ text, ofUtf8 bytes = some text ∧ fromHex (trim text) = some secret.toList := by
  simp only [decodeSecret, except_bind_ok, okOr_ok]
  constructor
  · rintro ⟨text, htext, decoded, hdecoded, h⟩
    split at h
    case isTrue hlength =>
      cases h
      exact ⟨text, htext, hdecoded⟩
    case isFalse => cases h
  · rintro ⟨text, htext, hdecoded⟩
    refine ⟨text, htext, _, hdecoded, ?_⟩
    rw [dif_pos secret.length_toList]
    congr

/-- Whatever is in a file, a secret takes its digits. -/
theorem length_of_decodeSecret {bytes : Bytes} {secret : Vector UInt8 32}
    (h : decodeSecret bytes = .ok secret) : 64 ≤ bytes.length := by
  obtain ⟨text, htext, hdecode⟩ := decodeSecret_ok.mp h
  have hdigits := length_of_hexBytes hdecode
  rw [secret.length_toList] at hdigits
  calc 64 = (trim text).toList.length := hdigits.symm
    _ ≤ text.toList.length := length_trim_le text
    _ ≤ (utf8 (String.ofList text.toList)).length := length_le_length_utf8 _
    _ = bytes.length := by rw [String.ofList_toList, utf8_of_ofUtf8 htext]

/-- What a file holds in the end: the digits and a line feed. -/
def secretText (secret : Vector UInt8 32) : Bytes := utf8 (toHex secret.toList) ++ utf8 "\n"

theorem secretText_eq (secret : Vector UInt8 32) :
    secretText secret = utf8 (String.ofList (hexChars secret.toList ++ ['\n'])) := by
  rw [secretText, toHex, ← utf8_append, ← String.ofList_append]

theorem length_digits (secret : Vector UInt8 32) : (hexChars secret.toList).length = 64 := by
  rw [length_hexChars, secret.length_toList]

/-- The text of a beginning of a file, by characters. -/
theorem trim_digits (secret : Vector UInt8 32) (n : ℕ) :
    trim (String.ofList ((hexChars secret.toList ++ ['\n']).take n)) =
      String.ofList ((hexChars secret.toList).take n) := by
  have hdigits : ∀ c ∈ hexChars secret.toList, isWhiteSpace c = false :=
    forall_mem_hexChars (fun _ => isWhiteSpace_hexDigit) _
  have hlength := length_digits secret
  by_cases hn : n ≤ 64
  · rw [List.take_append_of_le_length (by omega)]
    exact trim_ofList fun c hc => hdigits c (List.mem_of_mem_take hc)
  · have hall : (hexChars secret.toList ++ ['\n']).length ≤ n := by
      rw [List.length_append, hlength]
      exact not_le.mp hn
    rw [List.take_of_length_le hall, List.take_of_length_le (by omega)]
    refine trim_ofList_concat hdigits (by decide) ?_
    rw [← List.length_pos_iff]
    omega

/-- A beginning of such a file has the secret exactly when it has all the digits. -/
theorem decodeSecret_of_begins {secret secret' : Vector UInt8 32} {bytes : Bytes}
    (h : bytes <+: secretText secret) :
    decodeSecret bytes = .ok secret' ↔ secret' = secret ∧ 64 ≤ bytes.length := by
  have hascii : ∀ c ∈ hexChars secret.toList ++ ['\n'], c.utf8Size = 1 := by
    rw [List.forall_mem_append, List.forall_mem_singleton]
    exact ⟨forall_mem_hexChars (fun _ => utf8Size_hexDigit) _, rfl⟩
  have htext : ofUtf8 bytes =
      some (String.ofList ((hexChars secret.toList ++ ['\n']).take bytes.length)) := by
    have hbytes := List.prefix_iff_eq_take.mp h
    rw [secretText_eq, take_utf8 hascii] at hbytes
    nth_rewrite 1 [hbytes]
    exact ofUtf8_utf8 _
  have hlength := length_digits secret
  rw [decodeSecret_ok, htext]
  simp only [Option.some.injEq, exists_eq_left', trim_digits, fromHex, String.toList_ofList]
  constructor
  · intro hdecode
    have hall := length_of_hexBytes hdecode
    rw [List.length_take, hlength, secret'.length_toList] at hall
    have h64 : 64 ≤ bytes.length := by omega
    rw [List.take_of_length_le (by omega), hexBytes_hexChars, Option.some.injEq] at hdecode
    exact ⟨Vector.toList_inj.mp hdecode.symm, h64⟩
  · rintro ⟨rfl, h64⟩
    rw [List.take_of_length_le (by omega), hexBytes_hexChars]

/-! ### Calls step by step -/

/-- The next operation of a call. -/
inductive LoadStage where
  | openFile
  | readToString
  | createDirAll
  | generate
  | createNew (secret : Vector UInt8 32)
  /-- The rest of one text, and the texts after it. -/
  | writeAll (secret : Vector UInt8 32) (buffer : Bytes) (later : List Bytes)
  | syncAll (secret : Vector UInt8 32)
  /-- An identity is its secret, in the network and the plane of the call. -/
  | finished (result : Except IdentityError (Vector UInt8 32))
  | ended

/-- The file, if there is one, and where every call stands. -/
@[ext] structure Loading (ι : Type) where
  file : Option Bytes
  stage : ι → LoadStage

/-- What happens to an operation. -/
inductive LoadEvent where
  /-- It is carried out: what the random generator gives, or how much is written. -/
  | goes (random : Vector UInt8 32) (count : ℕ)
  | fails (message : String)
  /-- The process ends before it. -/
  | ends

/-- A call and what happens to its next operation. -/
structure LoadStep (ι : Type) where
  call : ι
  event : LoadEvent

namespace LoadStage

/-- What comes after a write. -/
def afterWrite (secret : Vector UInt8 32) (left : Bytes) (later : List Bytes) : LoadStage :=
  match left, later with
  | [], [] => .syncAll secret
  | [], buffer :: rest => .writeAll secret buffer rest
  | byte :: bytes, _ => .writeAll secret (byte :: bytes) later

/-- An operation is carried out on the file. -/
def proceed (random : Vector UInt8 32) (count : ℕ) (file : Option Bytes) :
    LoadStage → Option Bytes × LoadStage
  | .openFile =>
    match file with
    | some _ => (file, .readToString)
    | none => (file, .createDirAll)
  | .readToString =>
    match file with
    | some bytes => (file, .finished (decodeSecret bytes))
    | none => (file, .readToString)
  | .createDirAll => (file, .generate)
  | .generate => (file, .createNew random)
  | .createNew secret =>
    match file with
    | some _ => (file, .finished (.error (.io "File exists (os error 17)")))
    | none => (some [], .writeAll secret (utf8 (toHex secret.toList)) [utf8 "\n"])
  | .writeAll secret buffer later =>
    if count = 0 then (file, .finished (.error (.io "failed to write whole buffer")))
    else (file.map (· ++ buffer.take count), afterWrite secret (buffer.drop count) later)
  | .syncAll secret => (file, .finished (.ok secret))
  | .finished result => (file, .finished result)
  | .ended => (file, .ended)

/-- Every operation can fail but making up a secret. -/
def fail (message : String) : LoadStage → LoadStage
  | .generate => .generate
  | .finished result => .finished result
  | .ended => .ended
  | _ => .finished (.error (.io message))

def stop : LoadStage → LoadStage
  | .finished result => .finished result
  | _ => .ended

end LoadStage

section Steps
variable {ι : Type} [DecidableEq ι]

def Loading.goTo (c : Loading ι) (i : ι) (file : Option Bytes) (stage : LoadStage) : Loading ι :=
  ⟨file, Function.update c.stage i stage⟩

@[simp] theorem Loading.goTo_stage_self (c : Loading ι) (i : ι) (file : Option Bytes)
    (stage : LoadStage) : (c.goTo i file stage).stage i = stage := Function.update_self ..

theorem Loading.goTo_stage_of_ne (c : Loading ι) {i j : ι} (h : j ≠ i) (file : Option Bytes)
    (stage : LoadStage) : (c.goTo i file stage).stage j = c.stage j := Function.update_of_ne h ..

theorem Loading.forall_goTo {c : Loading ι} {i : ι} {P : LoadStage → Prop} {stage : LoadStage}
    (h : ∀ j, j ≠ i → P (c.stage j)) (hstage : P stage) (file : Option Bytes) (j : ι) :
    P ((c.goTo i file stage).stage j) := by
  by_cases hj : j = i
  · rw [hj, goTo_stage_self]
    exact hstage
  · rw [c.goTo_stage_of_ne hj]
    exact h j hj

/-- A call takes its next step. -/
def loadStep (step : LoadStep ι) (c : Loading ι) : Loading ι :=
  let stage := c.stage step.call
  match step.event with
  | .goes random count =>
    let next := stage.proceed random count c.file
    c.goTo step.call next.1 next.2
  | .fails message => c.goTo step.call c.file (stage.fail message)
  | .ends => c.goTo step.call c.file stage.stop

/-- Calls that have yet to begin. -/
def Loading.start (ι : Type) (file : Option Bytes) : Loading ι := ⟨file, fun _ => .openFile⟩

/-- What calls come to, in any order and with whatever happens to their operations. -/
def Loads (c c' : Loading ι) : Prop := Reaches loadStep (fun _ _ => True) c c'

end Steps

/-! ### What a step can do -/

namespace LoadStage

def IsWriting : LoadStage → Prop
  | .writeAll _ _ _ => True
  | _ => False

/-- Where a call can stand while there is no file. -/
def Unread : LoadStage → Prop
  | .openFile | .createDirAll | .generate | .createNew _ | .finished (.error _) | .ended => True
  | .readToString | .writeAll _ _ _ | .syncAll _ | .finished (.ok _) => False

/-- Where a call can stand when the file has these bytes and is to have this text. -/
def Fits (text bytes : Bytes) : LoadStage → Prop
  | .writeAll secret buffer later =>
    bytes ++ (buffer ++ later.flatten) = text ∧ decodeSecret text = .ok secret
  | .syncAll secret => decodeSecret bytes = .ok secret
  | .finished (.ok secret) => decodeSecret bytes = .ok secret
  | _ => True

theorem Unread.not_isWriting {stage : LoadStage} (h : stage.Unread) : ¬ stage.IsWriting := by
  cases stage <;> first
    | exact id
    | exact h.elim

theorem Unread.fits {stage : LoadStage} (h : stage.Unread) {text bytes : Bytes} :
    stage.Fits text bytes := by
  match stage with
  | .openFile => trivial
  | .createDirAll => trivial
  | .generate => trivial
  | .createNew _ => trivial
  | .finished (.error _) => trivial
  | .ended => trivial

theorem fits_afterWrite {text bytes left : Bytes} {later : List Bytes} {secret : Vector UInt8 32}
    (h : bytes ++ (left ++ later.flatten) = text) (hsecret : decodeSecret text = .ok secret) :
    (afterWrite secret left later).Fits text bytes := by
  match left, later with
  | [], [] =>
    rw [List.flatten_nil, List.append_nil, List.append_nil] at h
    rw [← h] at hsecret
    exact hsecret
  | [], buffer :: rest => exact ⟨h, hsecret⟩
  | byte :: rest, _ => exact ⟨h, hsecret⟩

/-- A call that does not write only has to find its secret on file. -/
theorem Fits.of_silent {stage : LoadStage} {text bytes text' bytes' : Bytes}
    (h : stage.Fits text bytes) (hsilent : ¬ stage.IsWriting)
    (hread : ∀ secret, decodeSecret bytes = .ok secret → decodeSecret bytes' = .ok secret) :
    stage.Fits text' bytes' := by
  match stage with
  | .writeAll _ _ _ => exact absurd trivial hsilent
  | .syncAll secret => exact hread secret h
  | .finished (.ok secret) => exact hread secret h
  | .finished (.error _) => trivial
  | .openFile => trivial
  | .readToString => trivial
  | .createDirAll => trivial
  | .generate => trivial
  | .createNew _ => trivial
  | .ended => trivial

/-- What the stage becomes of a call that leaves the file alone. -/
structure Quiet (file : Option Bytes) (stage stage' : LoadStage) : Prop where
  silent : ¬ stage'.IsWriting
  unread : file = none → stage.Unread → stage'.Unread
  fits : ∀ bytes text, file = some bytes → stage.Fits text bytes → stage'.Fits text bytes

theorem quiet_self {file : Option Bytes} {stage : LoadStage} (h : ¬ stage.IsWriting) :
    Quiet file stage stage := ⟨h, fun _ => id, fun _ _ _ => id⟩

theorem quiet_error (file : Option Bytes) (stage : LoadStage) (e : IdentityError) :
    Quiet file stage (.finished (.error e)) := ⟨id, fun _ _ => trivial, fun _ _ _ _ => trivial⟩

theorem quiet_fail (file : Option Bytes) (stage : LoadStage) (message : String) :
    Quiet file stage (stage.fail message) := by
  cases stage <;> first
    | exact quiet_error _ _ _
    | exact quiet_self id

theorem quiet_stop (file : Option Bytes) (stage : LoadStage) : Quiet file stage stage.stop := by
  cases stage <;> first
    | exact quiet_self id
    | exact ⟨id, fun _ _ => trivial, fun _ _ _ _ => trivial⟩

/-- Everything a step can make of the file and the stage of a call. -/
inductive Effect (file : Option Bytes) (stage : LoadStage) : Option Bytes × LoadStage → Prop where
  | quiet (stage' : LoadStage) (h : Quiet file stage stage') : Effect file stage (file, stage')
  /-- There was no file, and the call has created it. -/
  | creates (secret : Vector UInt8 32) (hnone : file = none) :
    Effect file stage (some [], .writeAll secret (utf8 (toHex secret.toList)) [utf8 "\n"])
  /-- The call has written some more. -/
  | appends (secret : Vector UInt8 32) (written left : Bytes) (later : List Bytes)
    (hhere : stage = .writeAll secret (written ++ left) later) :
    Effect file stage (file.map (· ++ written), afterWrite secret left later)

theorem proceed_effect (random : Vector UInt8 32) (count : ℕ) (file : Option Bytes)
    (stage : LoadStage) : Effect file stage (stage.proceed random count file) := by
  cases stage with
  | openFile =>
    cases file with
    | none => exact .quiet .createDirAll ⟨id, fun _ _ => trivial, fun _ _ _ _ => trivial⟩
    | some bytes =>
      exact .quiet .readToString
        ⟨id, fun h => absurd h (Option.some_ne_none bytes), fun _ _ _ _ => trivial⟩
  | readToString =>
    cases file with
    | none => exact .quiet .readToString (quiet_self id)
    | some bytes =>
      refine .quiet (.finished (decodeSecret bytes))
        ⟨id, fun h => absurd h (Option.some_ne_none bytes), fun _ _ hbytes _ => ?_⟩
      cases hbytes
      cases hsecret : decodeSecret bytes with
      | error e => trivial
      | ok secret => exact hsecret
  | createDirAll => exact .quiet .generate ⟨id, fun _ _ => trivial, fun _ _ _ _ => trivial⟩
  | generate => exact .quiet (.createNew random) ⟨id, fun _ _ => trivial, fun _ _ _ _ => trivial⟩
  | createNew secret =>
    cases file with
    | none => exact .creates secret rfl
    | some bytes => exact .quiet _ (quiet_error _ _ _)
  | writeAll secret buffer later =>
    by_cases hcount : count = 0
    · rw [proceed, if_pos hcount]
      exact .quiet _ (quiet_error _ _ _)
    · rw [proceed, if_neg hcount]
      refine .appends secret _ _ later ?_
      rw [List.take_append_drop]
  | syncAll secret =>
    exact .quiet (.finished (.ok secret)) ⟨id, fun _ h => h.elim, fun _ _ _ hsecret => hsecret⟩
  | finished result => exact .quiet _ (quiet_self id)
  | ended => exact .quiet _ (quiet_self id)

end LoadStage

section Runs
variable {ι : Type} [DecidableEq ι] {c c' : Loading ι}

theorem loadStep_effect (c : Loading ι) (step : LoadStep ι) :
    ∃ next, (c.stage step.call).Effect c.file next ∧
      loadStep step c = c.goTo step.call next.1 next.2 := by
  obtain ⟨i, event⟩ := step
  cases event with
  | goes random count => exact ⟨_, LoadStage.proceed_effect random count _ _, rfl⟩
  | fails message => exact ⟨_, .quiet _ (LoadStage.quiet_fail _ _ message), rfl⟩
  | ends => exact ⟨_, .quiet _ (LoadStage.quiet_stop _ _), rfl⟩

/-! ### What is on file -/

/-- The file has the beginning of the text that it is to have, and once a secret can be
read from it, it stays the same. -/
structure OnFile (c : Loading ι) (text bytes : Bytes) : Prop where
  file : c.file = some bytes
  begins : bytes <+: text
  steady : ∀ p q secret, bytes <+: p → p <+: q → q <+: text →
    decodeSecret p = .ok secret → decodeSecret q = .ok secret
  fits : ∀ i, (c.stage i).Fits text bytes
  single : ∀ i j, (c.stage i).IsWriting → (c.stage j).IsWriting → i = j

namespace OnFile

variable {text bytes : Bytes} {i : ι}

theorem quiet (h : OnFile c text bytes) {stage : LoadStage} (hquiet : (c.stage i).Quiet c.file stage) :
    OnFile (c.goTo i c.file stage) text bytes where
  file := h.file
  begins := h.begins
  steady := h.steady
  fits := Loading.forall_goTo (fun j _ => h.fits j) (hquiet.fits bytes text h.file (h.fits i)) _
  single j k hj hk := by
    have hother {l : ι} (hl : ((c.goTo i c.file stage).stage l).IsWriting) : (c.stage l).IsWriting := by
      by_cases hi : l = i
      · rw [hi, Loading.goTo_stage_self] at hl
        exact absurd hl hquiet.silent
      · rwa [c.goTo_stage_of_ne hi] at hl
    exact h.single j k (hother hj) (hother hk)

theorem appends (h : OnFile c text bytes) {secret : Vector UInt8 32} {written left : Bytes}
    {later : List Bytes} (hhere : c.stage i = .writeAll secret (written ++ left) later) :
    OnFile (c.goTo i (c.file.map (· ++ written)) (.afterWrite secret left later)) text
      (bytes ++ written) := by
  have hfits := h.fits i
  rw [hhere] at hfits
  obtain ⟨htext, hsecret⟩ := hfits
  rw [List.append_assoc, ← List.append_assoc] at htext
  have hwriting : (c.stage i).IsWriting := by
    rw [hhere]
    trivial
  have hbegins : bytes ++ written <+: text := ⟨_, htext⟩
  have honly {j : ι} (hj : ((c.goTo i (c.file.map (· ++ written))
      (.afterWrite secret left later)).stage j).IsWriting) : j = i := by
    by_contra hne
    rw [c.goTo_stage_of_ne hne] at hj
    exact hne (h.single j i hj hwriting)
  refine ⟨?_, hbegins, fun p q s hp => h.steady p q s ((List.prefix_append _ _).trans hp),
    Loading.forall_goTo (fun j hj => ?_) (LoadStage.fits_afterWrite htext hsecret) _,
    fun j k hj hk => (honly hj).trans (honly hk).symm⟩
  · show c.file.map (· ++ written) = _
    rw [h.file, Option.map_some]
  · exact (h.fits j).of_silent (fun hw => hj (h.single j i hw hwriting)) fun s =>
      h.steady _ _ s (List.prefix_refl _) (List.prefix_append _ _) hbegins

/-- A file that was just created. -/
theorem created (hunread : ∀ j, (c.stage j).Unread) (secret : Vector UInt8 32) :
    OnFile (c.goTo i (some []) (.writeAll secret (utf8 (toHex secret.toList)) [utf8 "\n"]))
      (secretText secret) [] := by
  have hwhole : decodeSecret (secretText secret) = .ok secret := by
    refine (decodeSecret_of_begins (List.prefix_refl _)).mpr ⟨rfl, ?_⟩
    rw [secretText, List.length_append, utf8_length, toHex_size, secret.length_toList]
    omega
  have honly {j : ι} (hj : ((c.goTo i (some []) (.writeAll secret (utf8 (toHex secret.toList))
      [utf8 "\n"])).stage j).IsWriting) : j = i := by
    by_contra hne
    rw [c.goTo_stage_of_ne hne] at hj
    exact (hunread j).not_isWriting hj
  have hfits : LoadStage.Fits (secretText secret) []
      (.writeAll secret (utf8 (toHex secret.toList)) [utf8 "\n"]) := by
    refine ⟨?_, hwhole⟩
    rw [List.nil_append, List.flatten_cons, List.flatten_nil, List.append_nil, secretText]
  refine ⟨rfl, List.nil_prefix, fun p q s _ hp hq hs => ?_,
    Loading.forall_goTo (fun j _ => (hunread j).fits) hfits _,
    fun j k hj hk => (honly hj).trans (honly hk).symm⟩
  obtain ⟨rfl, hlength⟩ := (decodeSecret_of_begins (hp.trans hq)).mp hs
  exact (decodeSecret_of_begins hq).mpr ⟨rfl, hlength.trans hp.length_le⟩

end OnFile

/-- There is no file, and nobody has seen one, or it is on its way. -/
def Consistent (c : Loading ι) : Prop :=
  (c.file = none ∧ ∀ i, (c.stage i).Unread) ∨ ∃ text bytes, OnFile c text bytes

omit [DecidableEq ι] in
theorem consistent_start (file : Option Bytes) : Consistent (.start ι file) := by
  cases file with
  | none => exact .inl ⟨rfl, fun _ => trivial⟩
  | some bytes =>
    refine .inr ⟨bytes, bytes, rfl, List.prefix_refl _, fun p q s hp hq hle hs => ?_,
      fun _ => trivial, fun _ _ h => h.elim⟩
    -- Nobody is going to write to a file that was there before.
    rw [← hq.eq_of_length (hq.length_le.antisymm (hle.length_le.trans hp.length_le))]
    exact hs

theorem Consistent.step (h : Consistent c) (step : LoadStep ι) : Consistent (loadStep step c) := by
  obtain ⟨next, heffect, hstep⟩ := loadStep_effect c step
  rw [hstep]
  rcases h with ⟨hnone, hunread⟩ | ⟨text, bytes, hfile⟩
  · cases heffect with
    | quiet stage hquiet =>
      exact .inl ⟨hnone, Loading.forall_goTo (fun j _ => hunread j) (hquiet.unread hnone (hunread _)) _⟩
    | creates secret _ => exact .inr ⟨_, _, OnFile.created hunread secret⟩
    | appends secret written left later hhere =>
      have hhere' := hunread step.call
      rw [hhere] at hhere'
      exact hhere'.elim
  · cases heffect with
    | quiet stage hquiet => exact .inr ⟨text, bytes, hfile.quiet hquiet⟩
    | creates secret hnone =>
      rw [hfile.file] at hnone
      cases hnone
    | appends secret written left later hhere => exact .inr ⟨text, _, hfile.appends hhere⟩

theorem Loads.consistent {file : Option Bytes} (h : Loads (.start ι file) c) : Consistent c :=
  h.invariant Consistent (consistent_start file) fun _ step hc _ => hc.step step

theorem loads_follow (schedule : List (LoadStep ι)) : Loads c (follow loadStep schedule c) := by
  refine reaches_follow ?_
  induction schedule generalizing c with
  | nil => trivial
  | cons step rest ih => exact ⟨trivial, ih⟩

/-- A call that has returned is over. -/
theorem Loads.finished (h : Loads c c') {i : ι} {result : Except IdentityError (Vector UInt8 32)}
    (hi : c.stage i = .finished result) : c'.stage i = .finished result := by
  refine h.invariant (fun d => d.stage i = .finished result) hi fun d step hd _ => ?_
  by_cases hcall : i = step.call
  · subst hcall
    obtain ⟨call, event⟩ := step
    cases event <;> exact (Loading.goTo_stage_self ..).trans (by rw [hd]; rfl)
  · obtain ⟨next, _, hstep⟩ := loadStep_effect d step
    rw [hstep, d.goTo_stage_of_ne hcall]
    exact hd

omit [DecidableEq ι] in
/-- The secret of a call that has returned is on file. -/
theorem Consistent.decode (h : Consistent c) {i : ι} {secret : Vector UInt8 32}
    (hi : c.stage i = .finished (.ok secret)) :
    ∃ bytes, c.file = some bytes ∧ decodeSecret bytes = .ok secret := by
  rcases h with ⟨_, hunread⟩ | ⟨text, bytes, hfile⟩
  · have hhere := hunread i
    rw [hi] at hhere
    exact hhere.elim
  · have hfits := hfile.fits i
    rw [hi] at hfits
    exact ⟨bytes, hfile.file, hfits⟩

/-- **All get one identity.** However many calls are under way and whatever happens to
them, once a call has returned an identity, every call that ever returns one returns the
same, and a call that begins then and that nothing happens to does return it. -/
theorem identity_agreed {file : Option Bytes} (h : Loads (.start ι file) c) {i : ι}
    {secret : Vector UInt8 32} (hi : c.stage i = .finished (.ok secret)) :
    (∀ c', Loads c c' → ∀ j secret', c'.stage j = .finished (.ok secret') → secret' = secret) ∧
      ∀ j, c.stage j = .openFile → ∀ random count random' count',
        (follow loadStep [⟨j, .goes random count⟩, ⟨j, .goes random' count'⟩] c).stage j =
          .finished (.ok secret) := by
  constructor
  · intro c' hlater j secret' hj
    have hc' : Consistent c' := Loads.consistent (Reaches.trans h hlater)
    obtain ⟨bytes, hbytes, hsecret⟩ := hc'.decode (Loads.finished hlater hi)
    obtain ⟨bytes', hbytes', hsecret'⟩ := hc'.decode hj
    rw [hbytes] at hbytes'
    cases hbytes'
    rw [hsecret] at hsecret'
    exact (Except.ok.inj hsecret').symm
  · intro j hj random count random' count'
    obtain ⟨bytes, hbytes, hsecret⟩ := (Loads.consistent h).decode hi
    have hopened : loadStep ⟨j, .goes random count⟩ c = c.goTo j (some bytes) .readToString := by
      simp only [loadStep, hj, hbytes, LoadStage.proceed]
    show (loadStep ⟨j, .goes random' count'⟩ (loadStep ⟨j, .goes random count⟩ c)).stage j = _
    rw [hopened, ← hsecret]
    simp only [loadStep, Loading.goTo_stage_self]
    rfl

/-- Two calls find no file. One of them creates it and gets its identity; the other one fails,
and so does a third, for which not all digits are there yet. -/
def crowdedStart : List (LoadStep ℕ) :=
  [0, 1, 0, 0, 1, 1, 0, 1, 0, 2, 2, 0, 0, 0].map fun i => ⟨i, .goes (.replicate 32 7) 40⟩

theorem identity_agreed_crowded :
    let c := follow loadStep crowdedStart (.start ℕ none)
    c.stage 0 = .finished (.ok (.replicate 32 7)) ∧
      c.stage 1 = .finished (.error (.io "File exists (os error 17)")) ∧
      c.stage 2 = .finished (.error .invalidSecret) ∧
      (∀ c', Loads c c' → ∀ j secret, c'.stage j = .finished (.ok secret) → secret = .replicate 32 7) ∧
      (follow loadStep [⟨3, .goes (.replicate 32 8) 0⟩, ⟨3, .goes (.replicate 32 8) 0⟩] c).stage 3 =
        .finished (.ok (.replicate 32 7)) := by
  intro c
  have hfirst : c.stage 0 = .finished (.ok (.replicate 32 7)) := rfl
  obtain ⟨hagree, hnext⟩ := identity_agreed (loads_follow crowdedStart) hfirst
  exact ⟨hfirst, rfl, rfl, hagree, hnext 3 rfl _ _ _ _⟩

/-! ### A file that is cut off -/

/-- The file has these bytes, and nobody is writing any more. -/
structure Torn (bytes : Bytes) (c : Loading ι) : Prop where
  file : c.file = some bytes
  silent : ∀ i, ¬ (c.stage i).IsWriting
  fits : ∀ i, (c.stage i).Fits bytes bytes

theorem Torn.step {bytes : Bytes} (h : Torn bytes c) (step : LoadStep ι) :
    Torn bytes (loadStep step c) := by
  obtain ⟨next, heffect, hstep⟩ := loadStep_effect c step
  rw [hstep]
  cases heffect with
  | creates secret hnone =>
    rw [h.file] at hnone
    cases hnone
  | appends secret written left later hhere =>
    refine absurd ?_ (h.silent step.call)
    rw [hhere]
    trivial
  | quiet stage hquiet =>
    have hfits : stage.Fits bytes bytes := hquiet.fits bytes bytes h.file (h.fits _)
    exact ⟨h.file,
      Loading.forall_goTo (P := fun stage => ¬ stage.IsWriting) (fun j _ => h.silent j) hquiet.silent _,
      Loading.forall_goTo (fun j _ => h.fits j) hfits _⟩

omit [DecidableEq ι] in
theorem Consistent.torn (h : Consistent c) {bytes : Bytes} (hfile : c.file = some bytes)
    (hstopped : ∀ i, ¬ (c.stage i).IsWriting) : Torn bytes c := by
  rcases h with ⟨hnone, _⟩ | ⟨text, bytes', hon⟩
  · rw [hfile] at hnone
    cases hnone
  · obtain rfl : bytes' = bytes := Option.some.inj (hon.file.symm.trans hfile)
    refine ⟨hfile, hstopped, fun i => ?_⟩
    exact (hon.fits i).of_silent (hstopped i) fun _ => id

/-- **A key that is cut off is never mended.** When a file has fewer bytes than the digits
of a secret and the call that wrote them has failed or ended, the file stays as it is, and
no call returns an identity from then on, whatever happens: it has to be removed by hand. -/
theorem torn_identity_stays {file : Option Bytes} (h : Loads (.start ι file) c) {bytes : Bytes}
    (hfile : c.file = some bytes) (hshort : bytes.length < 64)
    (hstopped : ∀ i, ¬ (c.stage i).IsWriting) (hlater : Loads c c') :
    c'.file = some bytes ∧ ∀ i secret, c'.stage i ≠ .finished (.ok secret) := by
  have htorn : Torn bytes c' :=
    hlater.invariant (Torn bytes) ((Loads.consistent h).torn hfile hstopped) fun _ step hd _ => hd.step step
  refine ⟨htorn.file, fun i secret hi => ?_⟩
  have hfits := htorn.fits i
  rw [hi] at hfits
  exact absurd (length_of_decodeSecret hfits) (not_le.mpr hshort)

/-- A call that is killed after it has written forty digits. -/
def killedStart : List (LoadStep ℕ) :=
  List.replicate 5 ⟨0, .goes (.replicate 32 7) 40⟩ ++ [⟨0, .ends⟩]

theorem torn_identity_stays_killed :
    let c := follow loadStep killedStart (.start ℕ none)
    c.stage 0 = .ended ∧ c.file = some ((utf8 (toHex (.replicate 32 7))).take 40) ∧
      ∀ c', Loads c c' → c'.file = c.file ∧ ∀ i secret, c'.stage i ≠ .finished (.ok secret) := by
  intro c
  have hfile : c.file = some ((utf8 (toHex (.replicate 32 7))).take 40) := rfl
  have hshort : ((utf8 (toHex (.replicate 32 7))).take 40).length < 64 := by
    rw [List.length_take]
    omega
  have hstopped (i : ℕ) : ¬ (c.stage i).IsWriting := by
    cases i with
    | zero => exact id
    | succ i => exact id
  refine ⟨rfl, hfile, fun c' hlater => ?_⟩
  rw [hfile]
  exact torn_identity_stays (loads_follow killedStart) hfile hshort hstopped hlater

end Runs

end Kerosene.Node

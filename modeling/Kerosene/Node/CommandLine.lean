import Kerosene.Node.Contracts

/-! The command line (`kerosene-rsctl`).

`clap` matches a line against the arguments that the structures declare, and the structures
are filled from what it has matched, every argument in its own type. An argument of `Cli` is
global: what is given for it at one level stands at all of them. The commands that write a
manifest declare an `output` of their own, a path, under the id of the global `output`, a
format. Whatever stands there, one of the two readings ends the program, and no line gives such
a command (`parse_ne_membership`). -/
namespace Kerosene.Node.Rsctl

open Lib.Inplace

/-! ### Values and their types -/

inductive Output where
  | text
  | json
  | jsonPretty
  deriving DecidableEq, Repr

/-- A value in the type its argument is declared with; a `Plane` counts as the plane that it
is turned into. -/
inductive ArgValue where
  | output (value : Output)
  | plane (value : DiscoveryPlane)
  | string (value : String)
  | path (value : String)
  | u64 (value : UInt64)
  | u16 (value : UInt16)
  | bool (value : Bool)
  deriving DecidableEq, Repr

namespace ArgValue

def output? : ArgValue → Option Output
  | .output value => some value
  | _ => none

def plane? : ArgValue → Option DiscoveryPlane
  | .plane value => some value
  | _ => none

def string? : ArgValue → Option String
  | .string value => some value
  | _ => none

def path? : ArgValue → Option String
  | .path value => some value
  | _ => none

def u64? : ArgValue → Option UInt64
  | .u64 value => some value
  | _ => none

def u16? : ArgValue → Option UInt16
  | .u16 value => some value
  | _ => none

def bool? : ArgValue → Option Bool
  | .bool value => some value
  | _ => none

end ArgValue

open ArgValue

/-- What was matched for the arguments of one command, by their ids. -/
abbrev Values := String → List ArgValue

/-- What was matched on a line: for the program itself, and for the subcommands from the outer
to the inner one. -/
structure ArgMatches where
  top : Values
  subcommands : List (String × Values)

/-- How the program ends without success: the line is refused (exit code 2), a value is
read in a type that is not its own (a panic, 101), or an error is returned (1). -/
inductive Exit where
  | usage (message : String)
  | mismatch (id : String)
  | failed (message : String)
  deriving DecidableEq, Repr

section Reading
variable {α : Type}

/-- `remove_one` of `clap`. -/
def removeOne (read : ArgValue → Option α) (id : String) (values : Values) :
    Except Exit (Option α) :=
  match values id with
  | [] => .ok none
  | value :: _ =>
    match read value with
    | some a => .ok (some a)
    | none => .error (.mismatch id)

/-- An argument that has to be there. -/
def required (read : ArgValue → Option α) (id : String) (values : Values) : Except Exit α := do
  let some a ← removeOne read id values |
    .error (.usage ("The following required argument was not provided: " ++ id))
  return a

/-- `remove_many` of `clap`. -/
def removeMany (read : ArgValue → Option α) (id : String) (values : Values) :
    Except Exit (List α) :=
  (values id).mapM fun value =>
    match read value with
    | some a => .ok a
    | none => .error (.mismatch id)

/-- An argument that was read has a value of the type. -/
theorem value_of_required {read : ArgValue → Option α} {id : String} {values : Values} {a : α}
    (h : required read id values = .ok a) : ∃ value rest, values id = value :: rest ∧
      read value = some a := by
  rw [required, except_bind_ok] at h
  obtain ⟨found, hfound, h⟩ := h
  unfold removeOne at hfound
  cases hvalues : values id with
  | nil =>
    rw [hvalues] at hfound
    cases hfound
    cases h
  | cons value rest =>
    refine ⟨value, rest, rfl, ?_⟩
    rw [hvalues] at hfound
    cases hread : read value with
    | none => simp [hread] at hfound
    | some b =>
      simp only [hread] at hfound
      cases hfound
      cases h
      rfl

/-- No value is read both as a format and as a path. -/
theorem output_ne_path {value : ArgValue} {o : Output} {p : String} (ho : value.output? = some o) :
    value.path? ≠ some p := by
  cases value with
  | output _ => exact Option.some_ne_none p ∘ Eq.symm
  | _ => cases ho

end Reading

/-! ### The arguments of the commands -/

structure CreateManifest where
  network : String
  plane : DiscoveryPlane
  epoch : UInt64
  threshold : UInt16
  members : String
  output : String
  joint : Bool
  previousManifestHash : String
  nextEpoch : Option UInt64

structure SignManifest where
  manifest : String
  identity : String
  output : String

/-- That there is a signed manifest is seen to by `clap`. -/
structure AssembleManifest where
  manifest : String
  signedManifests : List String
  output : String

/-- The commands of `membership` that write a manifest. -/
inductive MembershipCommand where
  | create (args : CreateManifest)
  | sign (args : SignManifest)
  | assemble (args : AssembleManifest)

/-- Whatever writes no manifest is `other`, and its arguments are left out. -/
inductive Command where
  | membership (command : MembershipCommand)
  | other

structure Cli where
  output : Output
  timeout : UInt64
  endpoint : Option String
  profile : Option String
  identityPem : Option String
  ca : Option String
  socks5h : Option String
  unixSocket : Option String
  requestId : Option String
  verbose : Bool
  command : Command

/-- The ids of the global arguments. -/
def Cli.globals : List String :=
  ["output", "timeout", "endpoint", "profile", "identity_pem", "ca", "socks5h", "unix_socket",
    "request_id", "verbose"]

/-! ### From the values to the arguments -/

def CreateManifest.fromArgMatches (values : Values) : Except Exit CreateManifest := do
  let network ← required string? "network" values
  let plane ← required plane? "plane" values
  let epoch ← required u64? "epoch" values
  let threshold ← required u16? "threshold" values
  let members ← required path? "members" values
  let output ← required path? "output" values
  let joint ← required bool? "joint" values
  let previousManifestHash ← required string? "previous_manifest_hash" values
  let nextEpoch ← removeOne u64? "next_epoch" values
  return { network, plane, epoch, threshold, members, output, joint, previousManifestHash, nextEpoch }

def SignManifest.fromArgMatches (values : Values) : Except Exit SignManifest := do
  let manifest ← required path? "manifest" values
  let identity ← required path? "identity" values
  let output ← required path? "output" values
  return { manifest, identity, output }

def AssembleManifest.fromArgMatches (values : Values) : Except Exit AssembleManifest := do
  let manifest ← required path? "manifest" values
  let signedManifests ← removeMany path? "signed_manifests" values
  let output ← required path? "output" values
  return { manifest, signedManifests, output }

def MembershipCommand.fromArgMatches (name : String) (values : Values) : Except Exit Command :=
  if name = "create" then do
    let args ← CreateManifest.fromArgMatches values
    return .membership (.create args)
  else if name = "sign" then do
    let args ← SignManifest.fromArgMatches values
    return .membership (.sign args)
  else if name = "assemble" then do
    let args ← AssembleManifest.fromArgMatches values
    return .membership (.assemble args)
  else
    return .other

def Command.fromArgMatches (subcommands : List (String × Values)) : Except Exit Command :=
  match subcommands with
  | [(group, _), (name, values)] =>
    if group = "membership" then MembershipCommand.fromArgMatches name values else .ok .other
  | _ => .ok .other

def Cli.fromArgMatches (m : ArgMatches) : Except Exit Cli := do
  let output ← required output? "output" m.top
  let timeout ← required u64? "timeout" m.top
  let endpoint ← removeOne string? "endpoint" m.top
  let profile ← removeOne string? "profile" m.top
  let identityPem ← removeOne path? "identity_pem" m.top
  let ca ← removeOne path? "ca" m.top
  let socks5h ← removeOne string? "socks5h" m.top
  let unixSocket ← removeOne path? "unix_socket" m.top
  let requestId ← removeOne string? "request_id" m.top
  let verbose ← required bool? "verbose" m.top
  let command ← Command.fromArgMatches m.subcommands
  return { output, timeout, endpoint, profile, identityPem, ca, socks5h, unixSocket, requestId,
           verbose, command }

/-! ### Lines -/

/-- What `clap` matches on a line, or the message it refuses the line with. -/
abbrev Clap := List String → Except String ArgMatches

/-- A global argument has one value at all levels. -/
def ArgMatches.Propagated (m : ArgMatches) : Prop :=
  ∀ id ∈ Cli.globals, ∀ subcommand ∈ m.subcommands, subcommand.2 id = m.top id

/-- What the documentation of `global` promises: the argument can be used at every level, and
its value is there at all of them. -/
def Clap.Propagates (clap : Clap) : Prop := ∀ line m, clap line = .ok m → m.Propagated

/-- `Cli::parse`. -/
def Cli.parse (clap : Clap) (line : List String) : Except Exit Cli := do
  let m ← (clap line).mapError .usage
  Cli.fromArgMatches m

/-- A command that writes a manifest was read with a path for its `output`. -/
theorem path_of_membership {subcommands : List (String × Values)} {command : MembershipCommand}
    (h : Command.fromArgMatches subcommands = .ok (.membership command)) :
    ∃ subcommand ∈ subcommands, ∃ path, required path? "output" subcommand.2 = .ok path := by
  unfold Command.fromArgMatches at h
  split at h
  case h_1 group _ name values =>
    refine ⟨(name, values), List.mem_cons_of_mem _ (List.mem_singleton.mpr rfl), ?_⟩
    split at h
    case isFalse => cases h
    unfold MembershipCommand.fromArgMatches at h
    split_ifs at h
    · obtain ⟨args, hargs, _⟩ := except_bind_ok.mp h
      simp only [CreateManifest.fromArgMatches, except_bind_ok] at hargs
      obtain ⟨_, _, _, _, _, _, _, _, _, _, path, hpath, _⟩ := hargs
      exact ⟨path, hpath⟩
    · obtain ⟨args, hargs, _⟩ := except_bind_ok.mp h
      simp only [SignManifest.fromArgMatches, except_bind_ok] at hargs
      obtain ⟨_, _, _, _, path, hpath, _⟩ := hargs
      exact ⟨path, hpath⟩
    · obtain ⟨args, hargs, _⟩ := except_bind_ok.mp h
      simp only [AssembleManifest.fromArgMatches, except_bind_ok] at hargs
      obtain ⟨_, _, _, _, path, hpath, _⟩ := hargs
      exact ⟨path, hpath⟩
    · cases h
  case h_2 => cases h

/-- The global format and the path of a command cannot both be read. -/
theorem ne_membership_of_propagated {m : ArgMatches} (hm : m.Propagated) {cli : Cli}
    (hcli : Cli.fromArgMatches m = .ok cli) (command : MembershipCommand) :
    cli.command ≠ .membership command := by
  intro hcommand
  simp only [Cli.fromArgMatches, except_bind_ok, except_pure_ok] at hcli
  obtain ⟨o, houtput, _, _, _, _, _, _, _, _, _, _, _, _, _, _, _, _, _, _, read, hread, hcli⟩ := hcli
  obtain rfl : cli.command = read := by rw [hcli]
  rw [hcommand] at hread
  obtain ⟨subcommand, hmem, path, hpath⟩ := path_of_membership hread
  obtain ⟨value, rest, htop, ho⟩ := value_of_required houtput
  obtain ⟨value', rest', hsub, hp⟩ := value_of_required hpath
  have hsame := hm "output" List.mem_cons_self subcommand hmem
  rw [htop, hsub] at hsame
  cases hsame
  exact output_ne_path ho hp

/-- **No line gives a command that writes a manifest.** -/
theorem parse_ne_membership {clap : Clap} (hclap : clap.Propagates) {line : List String} {cli : Cli}
    (hcli : Cli.parse clap line = .ok cli) (command : MembershipCommand) :
    cli.command ≠ .membership command := by
  rw [Cli.parse, except_bind_ok] at hcli
  obtain ⟨m, hm, hcli⟩ := hcli
  exact ne_membership_of_propagated (hclap line m ((mapError_eq_ok _).mp hm)) hcli command

end Kerosene.Node.Rsctl

import Scaffolding.Files.Basic
import Scaffolding.Host.Shell
import Scaffolding.Session.Basic

/-!
# A bare host

A host with nothing on it but its files, the shell and the programs that are always there. It is
reached by no network, and no user is there to answer.

A program is named or stands at a path. A file at a path is run if its mode says so and its first
line names the shell.
-/

set_option autoImplicit false

namespace Scaffolding

namespace SystemError

/-- The errors of the system for starting programs, with its wording. -/
def notExecutable : SystemError := ⟨.other, "Exec format error (os error 8)"⟩
def nulByte : SystemError := ⟨.invalidInput, "nul byte found in provided data"⟩

/-- The error of asking a user who is not there. -/
def notConnected : SystemError := ⟨.other, "not connected"⟩

end SystemError

namespace Host

def Output.outcome (o : Output) : Tool.Outcome :=
  ⟨.ofCode (some o.status), String.ofList (Text.decode o.stdout),
    String.ofList (Text.decode o.stderr)⟩

def Run.outcome (r : Run) : Tool.Outcome :=
  let code : Option Int := match r.ending with
    | some ending => ending.map Int.ofNat
    | none => some r.status
  ⟨.ofCode code, String.ofList (Text.decode r.stdout), String.ofList (Text.decode r.stderr)⟩

/-- What the shell does with arguments. Its input is empty, so that without arguments it does
nothing. -/
def runShell (files : Files) : List String → Tool.Outcome
  | [] => (Output.success []).outcome
  | "-c" :: text :: name :: args => (runScript ⟨name, args⟩ text).outcome
  | "-c" :: text :: [] => (runScript ⟨"sh", []⟩ text).outcome
  | "-c" :: [] => (Output.failure 2 "sh: 0: -c requires an argument\n").outcome
  | path :: args =>
    match files.readText? path with
    | some text => (runScript ⟨path, args⟩ text).outcome
    | none =>
      (Output.failure 2 ("sh: 0: cannot open " ++ path ++ ": No such file\n")).outcome

def runNamed (files : Files) (name : String) (args : List String) : Tool.Reply :=
  if name = "sh" then .ok (runShell files args)
  else
    match program? .host [] name args with
    | some o => .ok o.outcome
    | none => .error .noEntry

/-- The name of the program at a path, if the path leads to one of the two places where the programs
of the host are. -/
def installed? (path : String) : Option String :=
  match Files.isAbsolute path, Files.names path with
  | true, ["bin", name] | true, ["usr", "bin", name] => some name
  | _, _ => none

/-- The first line of a file that is run by the shell. -/
def shellLines : List String :=
  ["#!/bin/sh", "#! /bin/sh", "#!/usr/bin/env sh"]

def runPath (files : Files) (path : String) (args : List String) : Tool.Reply :=
  match installed? path with
  | some name => runNamed files name args
  | none =>
    match files.find path with
    | .error e => .error e
    | .ok (_, .file text mode) =>
      if mode &&& 0o111 = 0 then .error .permissionDenied
      else
        match (Text.lines text).head? with
        | some line =>
          if shellLines.contains (Text.trim line) then
            .ok (runScript ⟨path, args⟩ text).outcome
          else if "#!".toList.isPrefixOf line.toList then .error .noEntry
          else .error .notExecutable
        | none => .error .notExecutable
    | .ok _ => .error .permissionDenied

/-- What comes of starting a command on the host. No text of a command can hold the character that
ends texts for the system. -/
def run (files : Files) (call : Tool.Command) : Tool.Reply :=
  if (call.program :: call.args).any fun s => s.contains '\x00' then .error .nulByte
  else if call.program.contains '/' then runPath files call.program call.args
  else runNamed files call.program call.args

/-- The world around a program on the host. -/
def world : World where
  run _ files call := (run files call, files)
  send _ _ := .lost
  ask _ _ := .error .notConnected
  confirm _ _ _ := .error .notConnected

end Host

end Scaffolding

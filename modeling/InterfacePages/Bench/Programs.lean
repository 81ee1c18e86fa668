/-
Programs to run formatters on.

No process can be started from here. The program therefore hands its formatters to `programs`, in which a shell and the
tools `cat`, `echo`, `printf`, `tr`, `true` and `false` work on the files of a store; every other program is not found.
This is one value of `Formatter.Programs`. What is proved about formatting and emission is proved for all of them, and
no statement is about this one.
-/
import InterfacePages.Bench.Shell.Evaluation
import InterfacePages.Formatter.Run

namespace InterfacePages

namespace Bench

open Formatter

/-- where tools are looked for whose name is no path -/
def toolFolders : List Octets := Shell.Search.folders Shell.Search.usualPath

/-- the tool at the first path that leads to one, or why there is none -/
def toolAmong (store : Files.Store) (cause : OsCause) : List Octets → Except OsCause Octets
  | [] => .error cause
  | path :: rest =>
    match Shell.Run.locateIn store store.work path with
    | .ok (.tool name) => .ok name
    | .ok (.free _) => toolAmong store cause rest
    | .error .notFound => toolAmong store cause rest
    | .error .notADirectory => toolAmong store cause rest
    | .error found => toolAmong store (if cause = .notFound then found else cause) rest
    | .ok _ => toolAmong store (if cause = .notFound then .permissionDenied else cause) rest

/-- the tool that a word names -/
def find (store : Files.Store) (called : Octets) : Except OsCause Octets :=
  toolAmong store .notFound
    (if called.contains 47 then [called] else toolFolders.map (Shell.Search.memberPath · called))

/-- a machine on which a tool is to be started, with its input -/
def machine (store : Files.Store) (input : Octets) : Shell.Machine where
  store := store
  streams := [.source input, .sink [], .sink []]
  shell := .start 1 [] [] Shell.Session.environment store.work [(0, 0), (1, 1), (2, 2)]
  pending := []
  processes := 1
  jobs := []
  done := []

def killed : Answer := ⟨-9, [], []⟩

/-- runs a tool, and what it has left to the background, to the end -/
def answer (tool called : Octets) (args : List Octets) : Shell.Run Answer := do
  let ended ← Shell.Run.outcome (Shell.Launch.run Shell.evaluate tool called args)
  Shell.Run.settle Shell.evaluate
  let status : Int :=
    match ended with
    | .ok (.status n) => n
    | .ok (.signal n) => -n
    | .error _ => killed.status
  return ⟨status, ← Shell.Run.written 1, ← Shell.Run.written 2⟩

/-- runs a tool on an input; one that goes beyond what is simulated counts as killed -/
def run (words : List Octets) (input : Option Octets) (store : Files.Store) : Answer × Files.Store :=
  match words, input with
  | called :: args, some octets =>
    match find store called with
    | .ok tool =>
      let (r, after) := (answer tool called args).run (machine store octets)
      (r.toOption.getD killed, after.store)
    | .error _ => (killed, store)
  | _, _ => (killed, store)

def programs : Programs where
  refusal store words :=
    match find store (words.headD []) with
    | .ok _ => none
    | .error cause => some cause
  run := run

end Bench

end InterfacePages

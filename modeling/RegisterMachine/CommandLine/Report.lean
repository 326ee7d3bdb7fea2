import RegisterMachine.CommandLine.Options
import RegisterMachine.FileSystem
import RegisterMachine.Machine.Summary

namespace RegisterMachine.CommandLine

structure Environment where
  files : FileSystem := {}
  stdout : Sink := {}
  /-- The message with which standard output fails when it is flushed. -/
  flushError? : Option String := none

inductive Abort
  | escaped (error : Error)
  | nulInPath
  | imagePath (path : String)
  | blankHex
  | blankBound
  deriving DecidableEq, Repr

def Abort.message : Abort → String
  | escaped e => e.message
  | nulInPath => "embedded null byte"
  | imagePath path => FileError.nameTooLong.report path
  | blankHex => "'list' object has no attribute 'split'"
  | blankBound => "'<' not supported between instances of 'list' and 'int'"

inductive Verdict
  | finished (status : Nat)
  | help
  | usage (error : UsageError)
  | aborted (abort : Abort)
  deriving DecidableEq, Repr

def Verdict.status : Verdict → Nat
  | finished status => status
  | help => 0
  | usage _ => 2
  | aborted _ => 1

structure Report where
  verdict : Verdict
  stderr : List String
  stdout : Sink
  files : FileSystem

def Report.stderrText (r : Report) : String := String.join (r.stderr.map (· ++ "\n"))

def Environment.report (env : Environment) (verdict : Verdict) (stderr : List String := []) :
    Report :=
  { verdict, stderr, stdout := env.stdout, files := env.files }

def faultLine (f : Fault) : String := s!"Error: {f.report}"

end RegisterMachine.CommandLine

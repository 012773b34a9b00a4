import Barcode.Text.Basic

/-!
# Commands and flags

The commands of the program, the flags that each of them has, and how many positional
arguments it wants.
-/

namespace Barcode.CommandLine

inductive Usage where
  | help
  | wrong
  deriving DecidableEq, Repr

def Usage.status : Usage → Nat
  | .help => 0
  | .wrong => 2

/-- The commands with their arguments, for the caller to read. -/
def Usage.overview : List String :=
  ["match CODE [--fields]",
   "embed CODE PAYLOAD --template ID",
   "create-instore TEMPLATE_ID SHORT_CODE PAYLOAD [--any-project]",
   "check TEMPLATE [--template-id ID]",
   "with any of: --project ID, --templates FILE, --json, --log-level LEVEL"]

inductive Flag where
  | help | project | templates | json | logLevel | fields | template | anyProject | templateId
  deriving DecidableEq, Repr

namespace Flag

def spelling : Flag → Text
  | .help => "--help".toList
  | .project => "--project".toList
  | .templates => "--templates".toList
  | .json => "--json".toList
  | .logLevel => "--log-level".toList
  | .fields => "--fields".toList
  | .template => "--template".toList
  | .anyProject => "--any-project".toList
  | .templateId => "--template-id".toList

def takesValue : Flag → Bool
  | .project | .templates | .logLevel | .template | .templateId => true
  | .help | .json | .fields | .anyProject => false

end Flag

inductive Verb where
  | matchCode | embed | createInstore | check
  deriving DecidableEq, Repr

namespace Verb

def ofName? (name : Text) : Option Verb :=
  match String.ofList name with
  | "match" => some .matchCode
  | "embed" => some .embed
  | "create-instore" => some .createInstore
  | "check" => some .check
  | _ => none

def flags (verb : Verb) : List Flag :=
  [.help, .project, .templates, .json, .logLevel] ++
    match verb with
    | .matchCode => [.fields]
    | .embed => [.template]
    | .createInstore => [.anyProject]
    | .check => [.templateId]

def arity : Verb → Nat
  | .matchCode | .check => 1
  | .embed => 2
  | .createInstore => 3

/-- The place of the payload among the positional arguments. -/
def payloadPlace? : Verb → Option Nat
  | .embed => some 1
  | .createInstore => some 2
  | _ => none

end Verb

end Barcode.CommandLine

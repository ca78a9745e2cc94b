import ConsoleHost.Guest.Module
import ConsoleHost.Host.Registry

/-! Imports: the check of a module's imports, and the connection to what the registry defines. -/
namespace ConsoleHost.Guest

/-- What is wrong with an import, before anything is linked. -/
inductive ImportFault where
  | foreignModule
  | notFunction
  | unknownName
  | wrongType (expected : HostEntry)
  deriving DecidableEq, Repr

namespace Import

/-- The types in a list, in brackets. -/
def typeList (types : List HostType) : String :=
  "[" ++ ", ".intercalate (types.map (·.name)) ++ "]"

/-- The first thing that is wrong with an import: its module, its kind, its name, its type. The name
and the type are those of an entry of the table. -/
def fault? (i : Import) : Option ImportFault :=
  if i.module ≠ HostFunction.namespaceName then some .foreignModule
  else
    match i.kind with
    | .func type =>
      match HostEntry.find? i.name with
      | none => some .unknownName
      | some e => if e.accepts type then none else some (.wrongType e)
    | _ => some .notFunction

def describe (i : Import) : ImportFault → String
  | .foreignModule =>
    "import from unknown module '" ++ i.module ++ "' (only '" ++ HostFunction.namespaceName ++
      "' allowed): " ++ i.name
  | .notFunction => "non-function import not allowed: " ++ i.module ++ "::" ++ i.name
  | .unknownName => "unknown host function: " ++ i.module ++ "::" ++ i.name
  | .wrongType expected =>
    "import '" ++ i.module ++ "::" ++ i.name ++ "' has wrong signature: expected " ++
      typeList expected.params ++ " -> " ++ typeList expected.results

/-- Every import must be a function of the table with its type, and the first that is not is
reported. -/
def checkAll (imports : List Import) : Except RunError Unit :=
  match imports.findSome? fun i => i.fault?.map i.describe with
  | none => .ok ()
  | some text => .error (.validation text)

end Import

/-- The types in a form, or nothing if there are none. -/
def typeForm (word : String) : List ValueType → String
  | [] => ""
  | types => " (" ++ word ++ types.foldl (fun text t => text ++ " " ++ t.name) "" ++ ")"

/-- A function type in the text format of modules. -/
def funcForm (type : FuncType) : String :=
  "(func" ++ typeForm "param" type.params ++ typeForm "result" type.results ++ ")"

namespace Import

/-- What an import is connected to: a function that the registry defines under its two names. -/
def resolve? (r : Registry) (i : Import) : Option HostFunction :=
  if i.module = HostFunction.namespaceName then r.find? i.name else none

/-- Why an import of this kind cannot be a function of the given type, if so. -/
def mismatch? (kind : ImportKind) (found : FuncType) : Option String :=
  match kind with
  | .func expected =>
    if expected = found then none
    else some ("types incompatible: expected type `" ++ funcForm expected ++ "`, found type `" ++
      funcForm found ++ "`")
  | .memory => some "expected memory, but found function"
  | .global => some "expected global, but found function"
  | .table => some "expected table, but found function"

/-- The error of an import that is connected to nothing. -/
def unknown (i : Import) : EngineError where
  cause := .other ("unknown import: `" ++ i.module ++ "::" ++ i.name ++ "` has not been defined")

/-- The error of an import that is not what it would be connected to. -/
def incompatible (i : Import) (reason : String) : EngineError where
  contexts := ["incompatible import type for `" ++ i.module ++ "::" ++ i.name ++ "`"]
  cause := .other reason

def undefined? (r : Registry) (i : Import) : Option EngineError :=
  if (i.resolve? r).isNone then some i.unknown else none

def incompatible? (r : Registry) (i : Import) : Option EngineError :=
  (i.resolve? r).bind fun f => (mismatch? i.kind f.type).map i.incompatible

/-- First every name is looked up, and then every type is compared with that of the function that
is defined under the name. -/
def linkAll (r : Registry) (imports : List Import) : Except EngineError Unit :=
  match imports.findSome? (undefined? r) with
  | some e => .error e
  | none =>
    match imports.findSome? (incompatible? r) with
    | some e => .error e
    | none => .ok ()

end Import
end ConsoleHost.Guest

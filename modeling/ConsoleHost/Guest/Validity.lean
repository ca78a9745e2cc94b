import ConsoleHost.Guest.Error
import ConsoleHost.Guest.Module
import ConsoleHost.Memory.Basic
import ConsoleHost.Text.Utf8

/-! Compilation: which modules are accepted before anything of them runs. -/
namespace ConsoleHost.Guest

/-- Why a module is refused. -/
inductive Defect where
  | malformed
  | duplicateExport (name : String)
  | unknownExport (name : String)
  | memoryLimits
  | startType
  | noMemory
  | unknownCallee
  deriving DecidableEq, Repr

def Defect.message : Defect → String
  | malformed => "the file is not a module"
  | duplicateExport name => "duplicate export name `" ++ name ++ "`"
  | unknownExport name => "export `" ++ name ++ "` names nothing"
  | memoryLimits => "the limits of a memory are out of order or too large"
  | startType => "the start function must be one of the module without parameters or results"
  | noMemory => "there is no memory"
  | unknownCallee => "unknown function"

/-- What a program refers to. -/
structure Needs where
  memory : Bool
  callees : List Callee

def Needs.none : Needs := ⟨false, []⟩

def Needs.and (a b : Needs) : Needs := ⟨a.memory || b.memory, a.callees ++ b.callees⟩

mutual

def Expr.needs : Expr → Needs
  | .int _ | .real _ | .var => .none
  | .call callee args => Needs.and ⟨false, [callee]⟩ (Expr.needsAll args)
  | .size => ⟨true, []⟩
  | .load _ address => Needs.and ⟨true, []⟩ address.needs
  | .intOp _ a b => a.needs.and b.needs
  | .realOp _ x y => x.needs.and y.needs
  | .convert a => a.needs

def Expr.needsAll : List Expr → Needs
  | [] => .none
  | e :: rest => e.needs.and (Expr.needsAll rest)

end

mutual

def Stmt.needs : Stmt → Needs
  | .call callee args => Needs.and ⟨false, [callee]⟩ (Expr.needsAll args)
  | .set value => value.needs
  | .grow pages => Needs.and ⟨true, []⟩ pages.needs
  | .store _ address value => Needs.and ⟨true, []⟩ (address.needs.and value.needs)
  | .branch condition yes no => condition.needs.and ((Stmt.needsAll yes).and (Stmt.needsAll no))
  | .loop condition body => condition.needs.and (Stmt.needsAll body)
  | .unreachable => .none

def Stmt.needsAll : List Stmt → Needs
  | [] => .none
  | s :: rest => s.needs.and (Stmt.needsAll rest)

end

/-- Limits in order, of at most the greatest number of pages; shared memory must have both. -/
def MemoryType.isValid (t : MemoryType) : Bool :=
  t.min ≤ Memory.maxPages &&
    match t.max with
    | some max => t.min ≤ max && max ≤ Memory.maxPages
    | none => !t.shared

namespace Module

def hasMemory (m : Module) : Bool :=
  !m.memories.isEmpty || m.imports.any fun i => i.kind == .memory

def knows (m : Module) : Callee → Bool
  | .imported name =>
    match m.import? name with
    | some ⟨_, _, .func _⟩ => true
    | _ => false
  | .own index => index < m.funcs.length

def knowsTarget (m : Module) : ExportTarget → Bool
  | .memory index => index < m.memories.length
  | .own index => index < m.funcs.length
  | .imported index =>
    match m.imports[index]? with
    | some ⟨_, _, .func _⟩ => true
    | _ => false
  | .global | .table => true

/-- The first name that occurs again later. -/
def repeated? : List String → Option String
  | [] => none
  | name :: rest => if name ∈ rest then some name else repeated? rest

def bodyDefect? (m : Module) (f : Func) : Option Defect :=
  let needs := Stmt.needsAll f.body
  if needs.memory && !m.hasMemory then some .noMemory
  else if needs.callees.all m.knows then none
  else some .unknownCallee

/-- Whether the start function, if any, can be called with nothing and gives nothing. -/
def startIsValid (m : Module) : Bool :=
  match m.start with
  | none => true
  | some index =>
    match m.funcs[index]? with
    | some f => f.type == ⟨[], []⟩
    | none => false

/-- What is wrong with a module, if anything. -/
def defect? (m : Module) : Option Defect :=
  if !m.memories.all (·.isValid) then some .memoryLimits
  else if !m.data.isEmpty && !m.hasMemory then some .noMemory
  else if !m.startIsValid then some .startType
  else
    match repeated? (m.exports.map (·.name)) with
    | some name => some (.duplicateExport name)
    | none =>
      match m.exports.find? fun e => !m.knowsTarget e.target with
      | some e => some (.unknownExport e.name)
      | none => m.funcs.findSome? m.bodyDefect?

end Module

/-- Accepts a module that has no defect. -/
def Module.validate (m : Module) : Except RunError Module :=
  match m.defect? with
  | none => .ok m
  | some d => .error (.compile [d.message])

/-- What the engine makes of the bytes of a file: the module that they describe, or the reasons why
they describe none, from the outermost to the innermost. -/
abbrev Decoder := List UInt8 → Except (List String) Module

/-- A decoder that knows some files and no others. -/
def Decoder.ofTable (known : List (List UInt8 × Module)) : Decoder := fun file =>
  match known.lookup file with
  | some m => .ok m
  | none => .error [Defect.malformed.message]

/-- A decoder that knows the files of the empty module: the eight bytes of the binary header, and a
text. -/
def Decoder.emptyModule : Decoder :=
  .ofTable [([0x00, 0x61, 0x73, 0x6D, 0x01, 0x00, 0x00, 0x00], .empty),
    (Text.encode "(module)", .empty)]

/-- A module as it is given: the bytes of a file, or a description. -/
inductive Source where
  | bytes (bytes : List UInt8)
  | described (m : Module)
  deriving Repr

/-- Decodes and validates. -/
def Source.compile (decode : Decoder) : Source → Except RunError Module
  | .bytes file =>
    match decode file with
    | .ok m => m.validate
    | .error reasons => .error (.compile reasons)
  | .described m => m.validate

end ConsoleHost.Guest

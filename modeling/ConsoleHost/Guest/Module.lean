import ConsoleHost.Double.Arithmetic
import ConsoleHost.Host.Function

/-! Guest modules: what they import, define and export, and the programs of their functions. -/
namespace ConsoleHost.Guest

inductive ImportKind where
  | func (type : FuncType)
  | memory
  | global
  | table
  deriving DecidableEq, Repr

structure Import where
  module : String
  name : String
  kind : ImportKind
  deriving DecidableEq, Repr

/-- A memory of `min` pages, which can grow to `max`. -/
structure MemoryType where
  min : Nat
  max : Option Nat := none
  shared : Bool := false
  deriving DecidableEq, Repr

/-- Bytes copied into the first memory before anything runs. -/
structure DataSegment where
  offset : UInt32
  bytes : List UInt8
  deriving DecidableEq, Repr

/-- A function to call: the first import of a name, or a function of the module. -/
inductive Callee where
  | imported (name : String)
  | own (index : Nat)
  deriving DecidableEq, Repr

/-- What a load or a store moves: a byte, four bytes, or the eight bytes of a real. -/
inductive Access where
  | byte
  | int
  | real
  deriving DecidableEq, Repr

inductive IntOp where
  | add
  | sub
  | mul
  | div
  | lt
  | eq
  deriving DecidableEq, Repr

inductive Expr where
  | int (value : Int32)
  | real (value : Double)
  /-- The function's one variable. -/
  | var
  | call (callee : Callee) (args : List Expr)
  /-- The pages of the first memory. -/
  | size
  | load (access : Access) (address : Expr)
  | intOp (op : IntOp) (a b : Expr)
  | realOp (op : RealOp) (x y : Expr)
  /-- An integer as a real. -/
  | convert (a : Expr)
  deriving Repr

inductive Stmt where
  | call (callee : Callee) (args : List Expr)
  | set (value : Expr)
  /-- Grows the first memory; the variable becomes its old number of pages, or -1. -/
  | grow (pages : Expr)
  | store (access : Access) (address value : Expr)
  | branch (condition : Expr) (yes no : List Stmt)
  | loop (condition : Expr) (body : List Stmt)
  | unreachable
  deriving Repr

/-- A function. Its one variable is zero at each entry, and it returns zeros. -/
structure Func where
  type : FuncType
  body : List Stmt
  deriving Repr

/-- What an export names. -/
inductive ExportTarget where
  | memory (index : Nat)
  | own (index : Nat)
  /-- An imported function, by its place among all imports. -/
  | imported (index : Nat)
  | global
  | table
  deriving DecidableEq, Repr

structure Export where
  name : String
  target : ExportTarget
  deriving DecidableEq, Repr

structure Module where
  imports : List Import
  memories : List MemoryType
  data : List DataSegment
  funcs : List Func
  exports : List Export
  /-- The function that runs when the module is instantiated. -/
  start : Option Nat
  deriving Repr

namespace Module

/-- The module that imports, defines and exports nothing. -/
def empty : Module := ⟨[], [], [], [], [], none⟩

def import? (m : Module) (name : String) : Option Import := m.imports.find? (·.name == name)

def export? (m : Module) (name : String) : Option Export := m.exports.find? (·.name == name)

end Module
end ConsoleHost.Guest

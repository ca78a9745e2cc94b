import ConsoleHost.Double.Basic
import ConsoleHost.Word

/-! The functions that the host offers to guests: the table of their names and types, and the
functions themselves as they are defined for linking. -/
namespace ConsoleHost

/-- The types of the values of a guest. -/
inductive ValueType where
  | i32
  | i64
  | f32
  | f64
  | v128
  | funcref
  | externref
  deriving DecidableEq, Repr

def ValueType.name : ValueType → String
  | i32 => "i32"
  | i64 => "i64"
  | f32 => "f32"
  | f64 => "f64"
  | v128 => "v128"
  | funcref => "funcref"
  | externref => "externref"

structure FuncType where
  params : List ValueType
  results : List ValueType
  deriving DecidableEq, Repr

/-- The types of the values that pass between guest and host. -/
inductive HostType where
  | i32
  | f64
  deriving DecidableEq, Repr

namespace HostType

/-- How errors name the type. -/
def name : HostType → String
  | i32 => "I32"
  | f64 => "F64"

def valueType : HostType → ValueType
  | i32 => .i32
  | f64 => .f64

/-- Whether a guest's type is this one. -/
def accepts (expected : HostType) (actual : ValueType) : Bool :=
  match expected with
  | i32 => actual == .i32
  | f64 => actual == .f64

theorem accepts_iff {expected : HostType} {actual : ValueType} :
    expected.accepts actual = true ↔ actual = expected.valueType := by
  cases expected <;> simp [accepts, valueType]

/-- Whether there are as many types as expected, and in each place the one that is expected. -/
def acceptAll (expected : List HostType) (actual : List ValueType) : Bool :=
  actual.length == expected.length &&
    (actual.zip expected).all fun (actual, expected) => expected.accepts actual

theorem acceptAll_iff {expected : List HostType} {actual : List ValueType} :
    acceptAll expected actual = true ↔ actual = expected.map (·.valueType) := by
  induction actual generalizing expected with
  | nil => cases expected <;> simp [acceptAll]
  | cons a actual ih =>
    cases expected with
    | nil => simp [acceptAll]
    | cons e expected =>
      simp only [List.map_cons, List.cons.injEq, ← ih, ← accepts_iff]
      simp only [acceptAll, List.length_cons, List.zip_cons_cons, List.all_cons, Bool.and_eq_true,
        beq_iff_eq, Nat.add_right_cancel_iff]
      exact and_left_comm

end HostType

/-- The type of a function that takes and gives these values. -/
def FuncType.ofHost (params results : List HostType) : FuncType :=
  ⟨params.map (·.valueType), results.map (·.valueType)⟩

/-- The module name under which guests import the functions. -/
def HostFunction.namespaceName : String := "std"

/-! ### The table -/

/-- An entry of the table that imports are checked against. -/
structure HostEntry where
  name : String
  params : List HostType
  results : List HostType
  deriving DecidableEq, Repr

namespace HostEntry

def all : List HostEntry :=
  [⟨"readln", [.i32, .i32], [.i32]⟩,
   ⟨"_print", [.i32, .i32], []⟩,
   ⟨"_println", [.i32, .i32], []⟩,
   ⟨"_ln", [], []⟩,
   ⟨"print_int", [.i32], []⟩,
   ⟨"println_int", [.i32], []⟩,
   ⟨"print_real", [.f64], []⟩,
   ⟨"println_real", [.f64], []⟩,
   ⟨"print_int_pad", [.i32, .i32], []⟩,
   ⟨"print_real_pad", [.f64, .i32], []⟩]

def find? (name : String) : Option HostEntry := all.find? (·.name == name)

def type (e : HostEntry) : FuncType := .ofHost e.params e.results

def accepts (e : HostEntry) (type : FuncType) : Bool :=
  HostType.acceptAll e.params type.params && HostType.acceptAll e.results type.results

theorem accepts_iff {e : HostEntry} {type : FuncType} :
    e.accepts type = true ↔ type = e.type := by
  obtain ⟨params, results⟩ := type
  simp [accepts, HostType.acceptAll_iff, HostEntry.type, FuncType.ofHost]

theorem find?_eq_some_iff {name : String} {e : HostEntry} :
    find? name = some e ↔ e ∈ all ∧ e.name = name := by
  constructor
  · intro h
    exact ⟨List.mem_of_find?_eq_some h, by simpa using List.find?_some h⟩
  · rintro ⟨hmem, rfl⟩
    have hall : ∀ e ∈ all, find? e.name = some e := by decide
    exact hall e hmem

end HostEntry

/-! ### The functions -/

/-- A call of a host function with its arguments. -/
inductive HostCall where
  | readln (offset maxLen : Int32)
  | print (offset len : Int32)
  | println (offset len : Int32)
  | ln
  | printInt (value : Int32)
  | printlnInt (value : Int32)
  | printReal (value : Double)
  | printlnReal (value : Double)
  | printIntPad (value width : Int32)
  | printRealPad (value : Double) (width : Int32)
  deriving DecidableEq, Repr

/-- The values of a type. -/
def HostType.Value : HostType → Type
  | i32 => Int32
  | f64 => Double

/-- The value that a guest hands over in a word. -/
def HostType.ofWord : (t : HostType) → Word → t.Value
  | i32, w => w.toInt32
  | f64, w => ⟨w⟩

/-- A function that takes values of these types, one after the other. -/
def Takes : List HostType → Type → Type
  | [], α => α
  | t :: rest, α => t.Value → Takes rest α

/-- The function at the values in some words. A word that is missing is zero. -/
def Takes.apply {α : Type} : {params : List HostType} → Takes params α → List Word → α
  | [], value, _ => value
  | t :: _, f, words => Takes.apply (f (t.ofWord (words.headD 0))) words.tail

/-- A function as it is defined for linking. Its parameters are those that its body takes. -/
structure Closure where
  name : String
  params : List HostType
  results : List HostType
  body : Takes params HostCall

/-- The functions that are defined. -/
inductive HostFunction where
  | readln
  | print
  | println
  | ln
  | printInt
  | printlnInt
  | printReal
  | printlnReal
  | printIntPad
  | printRealPad
  deriving DecidableEq, Repr

namespace HostFunction

/-- Every function, in the order in which they are defined. -/
def all : List HostFunction :=
  [readln, print, println, ln, printInt, printlnInt, printReal, printlnReal, printIntPad,
    printRealPad]

def closure : HostFunction → Closure
  | readln => ⟨"readln", [.i32, .i32], [.i32], HostCall.readln⟩
  | print => ⟨"_print", [.i32, .i32], [], HostCall.print⟩
  | println => ⟨"_println", [.i32, .i32], [], HostCall.println⟩
  | ln => ⟨"_ln", [], [], HostCall.ln⟩
  | printInt => ⟨"print_int", [.i32], [], HostCall.printInt⟩
  | printlnInt => ⟨"println_int", [.i32], [], HostCall.printlnInt⟩
  | printReal => ⟨"print_real", [.f64], [], HostCall.printReal⟩
  | printlnReal => ⟨"println_real", [.f64], [], HostCall.printlnReal⟩
  | printIntPad => ⟨"print_int_pad", [.i32, .i32], [], HostCall.printIntPad⟩
  | printRealPad => ⟨"print_real_pad", [.f64, .i32], [], HostCall.printRealPad⟩

def name (f : HostFunction) : String := f.closure.name

def type (f : HostFunction) : FuncType := .ofHost f.closure.params f.closure.results

/-- The call that the function makes of its arguments. -/
def call (f : HostFunction) (args : List Word) : HostCall := f.closure.body.apply args

def find? (name : String) : Option HostFunction := all.find? (·.name == name)

theorem mem_all (f : HostFunction) : f ∈ all := by
  cases f <;> simp [all]

theorem find?_name (f : HostFunction) : find? f.name = some f := by
  cases f <;> rfl

theorem name_of_find? {name : String} {f : HostFunction} (h : find? name = some f) :
    f.name = name := by
  simpa using List.find?_some h

theorem name_injective {f g : HostFunction} (h : f.name = g.name) : f = g := by
  have hf := find?_name f
  rw [h, find?_name] at hf
  exact (Option.some.inj hf).symm

/-- The functions that reach into guest memory. -/
def usesMemory : HostFunction → Bool
  | readln | print | println => true
  | _ => false

end HostFunction

/-- The function that a call is of. -/
def HostCall.function : HostCall → HostFunction
  | readln .. => .readln
  | print .. => .print
  | println .. => .println
  | ln => .ln
  | printInt _ => .printInt
  | printlnInt _ => .printlnInt
  | printReal _ => .printReal
  | printlnReal _ => .printlnReal
  | printIntPad .. => .printIntPad
  | printRealPad .. => .printRealPad

end ConsoleHost

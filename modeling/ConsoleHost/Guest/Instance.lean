import ConsoleHost.Guest.Machine

/-! Instances: the memories that a module starts with, and what it exports. -/
namespace ConsoleHost.Guest

namespace Module

/-- Copies data into the first memory; the first segment that does not fit in it traps. -/
def placeData (store : Store) : List DataSegment → Except Trap Store
  | [] => .ok store
  | d :: rest =>
    let size := (store.memories[0]?.map (·.size)).getD 0
    if d.offset.toNat + d.bytes.length ≤ size then
      placeData (store.modify 0 fun m => m.write d.offset.toNat d.bytes) rest
    else .error .outOfBounds

/-- The memories of a new instance, with the data in place. -/
def initialStore (m : Module) : Except Trap Store :=
  placeData ⟨(m.memories.map fun t => Memory.ofPages t.min t.max).toArray, none⟩ m.data

/-- The memory exported under a name; shared memories do not count. -/
def exportedMemory? (m : Module) (name : String) : Option Nat :=
  match m.export? name with
  | some ⟨_, .memory index⟩ =>
    match m.memories[index]? with
    | some t => if t.shared then none else some index
    | none => none
  | _ => none

/-- The function exported under a name, and its type. -/
def exportedFunc? (m : Module) (name : String) : Option (Callee × FuncType) :=
  match m.export? name with
  | some ⟨_, .own index⟩ => (m.funcs[index]?).map fun f => (.own index, f.type)
  | some ⟨_, .imported index⟩ =>
    match m.imports[index]? with
    | some ⟨_, name, .func type⟩ => some (.imported name, type)
    | _ => none
  | _ => none

end Module

end ConsoleHost.Guest

import ConsoleHost.Log.Directive

/-! Log filters: which entries are written, by the directives that govern them. -/
namespace ConsoleHost.Log

/-- Directives in the order in which they are given. -/
structure Filter where
  directives : List Directive
  deriving DecidableEq, Repr

namespace Filter

def upTo (l : Level) : Filter := ⟨[⟨"", none, .ofLevel l⟩]⟩

/-- Directives separated by commas. Without any, only errors are written. -/
def parse? (spec : String) : Option Filter :=
  match (spec.splitOn ",").filter (!·.isEmpty) with
  | [] => some (.upTo .error)
  | texts => (texts.mapM Directive.parse?).map (⟨·⟩)

/-- Of the directives that govern an entry, the one that counts. -/
def choose (e : Entry) : Option Directive → Directive → Option Directive
  | none, d => if d.governs e then some d else none
  | some best, d => if d.governs e && d.outranks best then some d else some best

def directive? (f : Filter) (e : Entry) : Option Directive := f.directives.foldl (choose e) none

/-- An entry that no directive governs is not written. -/
def enables (f : Filter) (e : Entry) : Bool :=
  (f.directive? e).any fun d => e.level.rank ≤ d.limit.rank

end Filter
end ConsoleHost.Log

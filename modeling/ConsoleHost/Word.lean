/-! The values a guest computes with, each kept in one word of 64 bits. -/
namespace ConsoleHost

/-- An integer in the low 32 bits, or the 64 bits of a real. -/
abbrev Word := UInt64

namespace Word

def ofInt32 (n : Int32) : Word := n.toUInt32.toUInt64

def toInt32 (w : Word) : Int32 := w.toUInt32.toInt32

end Word
end ConsoleHost

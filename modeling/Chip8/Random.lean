/-!
# Random sources

A source is asked for one byte at a time. It is given by its answers in order and by how many were asked for; an answer
is a byte, a failure that it reports, or a crash of the source itself.
-/

namespace Chip8

/-- What a source answers when it is asked for a byte. -/
inductive RandomAnswer
  | byte (b : UInt8)
  | failure (cause : String)
  | crash (message : String)
  deriving DecidableEq, Repr

structure RandomSource where
  answers : Nat → RandomAnswer
  asked : Nat

namespace RandomSource

/-- The next answer and the source after it. -/
def next (s : RandomSource) : RandomAnswer × RandomSource := (s.answers s.asked, { s with asked := s.asked + 1 })

/-- Gives the listed answers, and fails after the last. -/
def scripted (script : List RandomAnswer) : RandomSource where
  answers k := (script[k]?).getD (.failure "script exhausted")
  asked := 0

/-- Gives the bytes of an endless sequence. -/
def ofBytes (bytes : Nat → UInt8) : RandomSource := ⟨fun k => .byte (bytes k), 0⟩

end RandomSource

end Chip8

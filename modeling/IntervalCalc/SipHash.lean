/-!
SipHash with one compression round a block and three finalisation rounds, under the key zero.
-/

namespace IntervalCalc.SipHash

/-- The four words that the message is mixed into. -/
structure State where
  v0 : UInt64
  v1 : UInt64
  v2 : UInt64
  v3 : UInt64

def start : State :=
  ⟨0x736f6d6570736575, 0x646f72616e646f6d, 0x6c7967656e657261, 0x7465646279746573⟩

def rotateLeft (x : UInt64) (n : UInt64) : UInt64 :=
  (x <<< n) ||| (x >>> (64 - n))

/-- One round of additions, rotations and exclusive ors. -/
def State.mix (s : State) : State :=
  let v0 := s.v0 + s.v1
  let v2 := s.v2 + s.v3
  let v1 := rotateLeft s.v1 13 ^^^ v0
  let v3 := rotateLeft s.v3 16 ^^^ v2
  let v0 := rotateLeft v0 32
  let v2 := v2 + v1
  let v0 := v0 + v3
  let v1 := rotateLeft v1 17 ^^^ v2
  let v3 := rotateLeft v3 21 ^^^ v0
  ⟨v0, v1, rotateLeft v2 32, v3⟩

/-- Takes in one block of eight bytes. -/
def State.absorb (s : State) (block : UInt64) : State :=
  let mixed := State.mix { s with v3 := s.v3 ^^^ block }
  { mixed with v0 := mixed.v0 ^^^ block }

def State.finish (s : State) : UInt64 :=
  let mixed := State.mix (State.mix (State.mix { s with v2 := s.v2 ^^^ 0xFF }))
  mixed.v0 ^^^ mixed.v1 ^^^ mixed.v2 ^^^ mixed.v3

/-- The word whose bytes, the least significant first, are the given ones. -/
def word : List UInt8 → UInt64
  | [] => 0
  | byte :: rest => byte.toUInt64 ||| (word rest <<< 8)

/-- The blocks of a message. The last one is filled up with zeros and ends in the length of the
message. -/
def blocks (length : Nat) : List UInt8 → List UInt64
  | b0 :: b1 :: b2 :: b3 :: b4 :: b5 :: b6 :: b7 :: rest =>
    word [b0, b1, b2, b3, b4, b5, b6, b7] :: blocks length rest
  | rest => [word rest ||| (length.toUInt64 <<< 56)]

def hash (message : List UInt8) : UInt64 :=
  ((blocks message.length message).foldl State.absorb start).finish

/-- The eight bytes of a word, the least significant first. -/
def bytes (word : UInt64) : List UInt8 :=
  (List.range 8).map fun n => (word >>> (8 * n.toUInt64)).toUInt8

end IntervalCalc.SipHash
